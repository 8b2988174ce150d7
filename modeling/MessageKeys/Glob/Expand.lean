import MessageKeys.Files.FileSystem
import MessageKeys.Glob.Pattern

namespace MessageKeys.Glob

variable (fs : FileSystem)

/-- The path of an entry of a directory. The working directory itself is left out. -/
def entryPath (dir name : String) : String :=
  if Path.components dir == ["."] then name else Path.join dir name

def namesIn (dir : String) : List String :=
  match fs.stat dir with
  | .ok (loc, .directory) => (fs.children loc).map (·.1)
  | _ => []

/-- Names below a directory, each with its path; directories are entered at most `depth` deep. -/
def deepEntries : (depth : Nat) → (dir : String) → List (String × String)
  | 0, _ => []
  | depth + 1, dir =>
    (namesIn fs dir).flatMap fun name =>
      (name, entryPath dir name) :: deepEntries depth (entryPath dir name)

/-- No path is deeper than this: it follows at most 40 links and passes an entry once between two of
them. -/
def depthBound : Nat := 41 * (fs.entries.length + 1)

def isSpecial (name : String) : Bool := name == "." || name == ".."

/-- The dot entries of a directory that a pattern with a leading dot stands for. -/
def specialNames : Pattern → List String
  | .char '.' :: ts => [".", ".."].filter fun name => Pattern.isMatch (.char '.' :: ts) name.toList
  | _ => []

/-- Goes on from each path, unless there is nothing left to match. -/
def continueWith (paths : List String) (more : Option (String → List String)) : List String :=
  match more with
  | none => paths
  | some next => paths.flatMap next

/-- The paths below a directory that the pieces of a pattern stand for. No two neighbours reach
through directories. -/
def expandPieces : List Pattern → (dir : String) → List String
  | [], _ => []
  | p :: ps, dir =>
    let more := if ps.isEmpty then none else some (expandPieces ps)
    match p.literal? with
    | some cs =>
      let name := String.ofList cs
      let path := entryPath dir name
      let present := if isSpecial name then fs.isDirectory dir else (fs.statLink path).toBool
      if present then continueWith [path] more else []
    | none =>
      if !fs.isDirectory dir then []
      else if p.isRecursive then
        let below := deepEntries fs (depthBound fs) dir
        match ps with
        | [] => (below.map (·.2)).filter fs.isDirectory
        | p :: ps =>
          let found := (below.filter fun (name, _) => p.isMatch name.toList).map (·.2)
          continueWith found (if ps.isEmpty then none else some (expandPieces ps))
      else
        let found := (namesIn fs dir).filter fun name => p.isMatch name.toList
        continueWith (found.map (entryPath dir) ++ (specialNames p).map (Path.join dir)) more

/-- Of neighbouring pieces that reach through directories one is enough. -/
def collapse : List Pattern → List Pattern
  | p :: q :: ps =>
    if p.isRecursive && q.isRecursive then collapse (q :: ps) else p :: collapse (q :: ps)
  | ps => ps

/-- The pieces of a pattern between slashes; a slash at the end is not followed by one. -/
def pieces (cs : List Char) : List String :=
  let ss := Path.segments cs
  if ss.getLast? == some "" then ss.dropLast else ss

def expand (text : String) : Except PatternError (List String) := do
  let _ ← Pattern.parse text
  let (scope, rest) := match text.toList with
    | '/' :: cs => ("/", cs)
    | cs => (".", cs)
  let patterns ← (pieces rest).mapM Pattern.parse
  return expandPieces fs (collapse patterns) scope

end MessageKeys.Glob

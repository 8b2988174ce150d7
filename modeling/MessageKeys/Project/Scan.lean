import MessageKeys.Glob.Expand
import MessageKeys.Text.StringSet

namespace MessageKeys.Log

inductive Level where
  | warn
  | debug
deriving Repr, DecidableEq

namespace Level

def name : Level → String
  | warn => "WARN"
  | debug => "DEBUG"

end Level

/-- An event with a message and named values, each as it is to be shown. -/
structure Event where
  level : Level
  message : String
  fields : List (String × String)
deriving Repr, DecidableEq

namespace Event

def render (e : Event) : String :=
  s!"{e.level.name} {e.message}" ++
    String.join (e.fields.map fun (name, value) => s!" {name}={value}")

end Event

end MessageKeys.Log

namespace MessageKeys.Scan

def sourceExtensions : List String := ["js", "jsx", "ts", "tsx", "mjs", "cjs", "mts", "cts"]

def testPatterns : List String :=
  ["**/*.test.tsx", "**/*.test.ts", "**/*.test.jsx", "**/*.test.js",
    "**/*.spec.tsx", "**/*.spec.ts", "**/*.spec.jsx", "**/*.spec.js", "**/__tests__/**"]

def isSource (path : String) : Bool :=
  match Path.extension? path with
  | some ext => sourceExtensions.contains ext
  | none => false

/-- Paths that are ignored with all that is below them, and patterns for whole paths. -/
structure IgnoreSet where
  paths : List String
  patterns : List Glob.Pattern

namespace IgnoreSet

def patternsOf (texts : List String) : List Glob.Pattern :=
  texts.filterMap fun text => (Glob.Pattern.parse text).toOption

def ofEntries (base : String) (entries : List String) (ignoreTests : Bool) : IgnoreSet where
  paths := (entries.filter (!Glob.isGlob ·)).map (Path.join base)
  patterns := patternsOf (entries.filter Glob.isGlob) ++
    if ignoreTests then patternsOf testPatterns else []

def ignores (s : IgnoreSet) (path : String) : Bool :=
  s.paths.any (Path.startsWith path) || s.patterns.any (·.isMatch path.toList)

end IgnoreSet

/-- Warnings about entries that are no patterns though they look like one. -/
def ignoreEvents (entries : List String) : List Log.Event :=
  (entries.filter Glob.isGlob).filterMap fun text =>
    match Glob.Pattern.parse text with
    | .ok _ => none
    | .error e => some ⟨.warn, s!"invalid ignore pattern: {e.message}", [("pattern", text)]⟩

variable (fs : FileSystem)

/-- What one entry of the includes stands for, or a warning. -/
def includeRoots (base entry : String) : Except Log.Event (List String) :=
  let path := Path.join base entry
  if Glob.isGlob entry then
    match Glob.expand fs path with
    | .ok paths => .ok (paths.filter fs.isDirectory)
    | .error e => .error ⟨.warn, s!"invalid include pattern: {e.message}", [("pattern", entry)]⟩
  else if fs.pathExists path then .ok [path]
  else .error ⟨.warn, "include path does not exist", [("path", path)]⟩

/-- The base directory, or what the includes stand for. -/
def roots (base : String) (includes : List String) : List String :=
  if includes.isEmpty then [base]
  else includes.flatMap fun entry => ((includeRoots fs base entry).toOption).getD []

def includeEvents (base : String) (includes : List String) : List Log.Event :=
  includes.filterMap fun entry =>
    match includeRoots fs base entry with
    | .ok _ => none
    | .error event => some event

/-- The regular files at or below a path. A link given as the path is followed, links below it are
not. -/
def walk (root : String) : Except FileError (List String) := do
  match ← fs.statLink root with
  | (_, .file _) => return [root]
  | (loc, .directory) => return filesBelow loc
  | (_, .link _) =>
    match ← fs.stat root with
    | (loc, .directory) => return filesBelow loc
    | _ => return []
where
  filesBelow (loc : Location) : List String :=
    (fs.below loc).filterMap fun
      | (names, .file _) => some (names.foldl Path.join root)
      | _ => none

structure Result where
  /-- In order, each once. -/
  files : StringSet
  /-- The number of roots that could not be entered. -/
  skipped : Nat
  events : List Log.Event

def filesOf (ignored : IgnoreSet) (root : String) : List String :=
  (((walk fs root).toOption).getD []).filter fun path => !ignored.ignores path && isSource path

def accessEvent? (root : String) : Option Log.Event :=
  match walk fs root with
  | .ok _ => none
  | .error e =>
    some ⟨.warn, s!"cannot access path: IO error for operation on {root}: {e.message}", []⟩

/-- The source files below the roots that no rule ignores. A directory that is ignored does not hide
what is below it. -/
def run (base : String) (includes ignores : List String) (ignoreTests : Bool) : Result :=
  let ignored := IgnoreSet.ofEntries base ignores ignoreTests
  let walked := roots fs base includes
  let files := StringSet.ofList (walked.flatMap (filesOf fs ignored))
  let denied := walked.filterMap (accessEvent? fs)
  ⟨files, denied.length,
    ignoreEvents ignores ++ includeEvents fs base includes ++ denied ++
      [⟨.debug, "scanned source files", [("files", toString files.size)]⟩]⟩

end MessageKeys.Scan

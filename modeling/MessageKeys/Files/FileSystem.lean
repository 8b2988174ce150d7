import MessageKeys.Files.Path

namespace MessageKeys

/-- Where an entry is: the names from the root down to it. -/
abbrev Location := List String

inductive Entry where
  | file (content : ByteArray)
  | directory
  | link (target : String)

instance : DecidableEq Entry
  | .file a, .file b =>
    match ByteArray.decEq a b with
    | isTrue h => isTrue (congrArg _ h)
    | isFalse h => isFalse fun he => h (Entry.file.inj he)
  | .link s, .link t =>
    match decEq s t with
    | isTrue h => isTrue (congrArg _ h)
    | isFalse h => isFalse fun he => h (Entry.link.inj he)
  | .directory, .directory => isTrue rfl
  | .file _, .directory | .file _, .link _ | .directory, .file _ | .directory, .link _
  | .link _, .file _ | .link _, .directory => isFalse nofun

inductive FileError where
  | notFound
  | notDirectory
  | isDirectory
  | alreadyExists
  | tooManyLinks
  | notText
deriving Repr, DecidableEq

namespace FileError

def message : FileError → String
  | notFound => "No such file or directory (os error 2)"
  | notDirectory => "Not a directory (os error 20)"
  | isDirectory => "Is a directory (os error 21)"
  | alreadyExists => "File exists (os error 17)"
  | tooManyLinks => "Too many levels of symbolic links (os error 40)"
  | notText => "stream did not contain valid UTF-8"

end FileError

/-- A chain of messages, the outermost first. `cause` follows them unless it has no text of its own
to show. -/
structure Problem where
  context : List String
  cause : Option String
deriving Repr, DecidableEq

namespace Problem

def ofCause (message : String) : Problem := ⟨[], some message⟩

def within (p : Problem) (doing : String) : Problem :=
  { p with context := doing :: p.context }

def messages (p : Problem) : List String :=
  p.context ++ p.cause.toList

end Problem

/-- Adds to a failure what was being done. -/
def inContext {α : Type} (doing : String) : Except Problem α → Except Problem α
  | .ok a => .ok a
  | .error p => .error (p.within doing)

/-- Files, directories and symbolic links at their locations, and a working directory. Every
location has an entry of its own: hard links, by which two of them share a file, are not
modelled. -/
structure FileSystem where
  entries : List (Location × Entry)
  workingDirectory : Location

namespace FileSystem

/-- The entry at a location. The root is a directory. -/
def get? (fs : FileSystem) (loc : Location) : Option Entry :=
  if loc.isEmpty then some .directory else fs.entries.lookup loc

def setEntry (loc : Location) (e : Entry) : List (Location × Entry) → List (Location × Entry)
  | [] => [(loc, e)]
  | (l, old) :: rest => if l = loc then (l, e) :: rest else (l, old) :: setEntry loc e rest

def set (fs : FileSystem) (loc : Location) (e : Entry) : FileSystem :=
  { fs with entries := setEntry loc e fs.entries }

def remove (fs : FileSystem) (loc : Location) : FileSystem :=
  { fs with entries := fs.entries.filter fun (l, _) => !loc.isPrefixOf l }

/-- What is below a location: names from there down, and entries. -/
def below (fs : FileSystem) (loc : Location) : List (Location × Entry) :=
  fs.entries.filterMap fun (l, e) =>
    if loc.isPrefixOf l && l != loc then some (l.drop loc.length, e) else none

def children (fs : FileSystem) (loc : Location) : List (String × Entry) :=
  (fs.below loc).filterMap fun
    | ([name], e) => some (name, e)
    | _ => none

/-- The steps of a path: its segments, of which the empty ones ask for a directory as a dot does. -/
def steps (path : String) : List String :=
  (Path.segments path.toList).map fun s => if s.isEmpty then "." else s

def start (fs : FileSystem) (path : String) : Location :=
  if Path.isAbsolute path then [] else fs.workingDirectory

/-- Goes down step by step from a directory. A link on the way, or at the end if the last one is to
be followed, is handed over with the directory that holds it and the steps that remain. -/
def descend (fs : FileSystem) (followLast : Bool)
    (onLink : Location → String → List String → Except FileError Location) :
    Location → List String → Except FileError Location
  | loc, [] => .ok loc
  | loc, step :: rest =>
    match fs.get? loc with
    | none => .error .notFound
    | some .directory =>
      if step = "." then descend fs followLast onLink loc rest
      else if step = ".." then descend fs followLast onLink loc.dropLast rest
      else
        match fs.get? (loc ++ [step]) with
        | some (.link target) =>
          if rest.isEmpty && !followLast then .ok (loc ++ [step]) else onLink loc target rest
        | _ => descend fs followLast onLink (loc ++ [step]) rest
    | some _ => .error .notDirectory

/-- Follows at most so many links. -/
def resolveSteps (fs : FileSystem) (followLast : Bool) :
    (links : Nat) → Location → List String → Except FileError Location
  | 0 => fs.descend followLast fun _ _ _ => .error .tooManyLinks
  | links + 1 => fs.descend followLast fun loc target rest =>
    if target.isEmpty then .error .notFound
    else
      let start := if Path.isAbsolute target then [] else loc
      resolveSteps fs followLast links start (steps target ++ rest)

/-- The location that a path denotes. Only its last component need not exist. -/
def locate (fs : FileSystem) (followLast : Bool) (path : String) : Except FileError Location :=
  if path.isEmpty then .error .notFound
  else fs.resolveSteps followLast 40 (fs.start path) (steps path)

def resolve (fs : FileSystem) (path : String) : Except FileError Location :=
  fs.locate true path

/-- The entry that a path denotes, all links followed. -/
def stat (fs : FileSystem) (path : String) : Except FileError (Location × Entry) := do
  let loc ← fs.resolve path
  match fs.get? loc with
  | some e => .ok (loc, e)
  | none => .error .notFound

/-- The entry that a path denotes, which may itself be a link. -/
def statLink (fs : FileSystem) (path : String) : Except FileError (Location × Entry) := do
  let loc ← fs.locate false path
  match fs.get? loc with
  | some e => .ok (loc, e)
  | none => .error .notFound

def pathExists (fs : FileSystem) (path : String) : Bool :=
  (fs.stat path).toBool

def isDirectory (fs : FileSystem) (path : String) : Bool :=
  match fs.stat path with
  | .ok (_, .directory) => true
  | _ => false

def read (fs : FileSystem) (path : String) : Except FileError ByteArray := do
  match ← fs.stat path with
  | (_, .file content) => .ok content
  | (_, .directory) => .error .isDirectory
  | (_, .link _) => .error .tooManyLinks

def readText (fs : FileSystem) (path : String) : Except FileError String := do
  match String.fromUTF8? (← fs.read path) with
  | some text => .ok text
  | none => .error .notText

/-- Replaces the content of a file, or makes a new one. -/
def write (fs : FileSystem) (path : String) (content : ByteArray) :
    Except FileError FileSystem := do
  let loc ← fs.resolve path
  match fs.get? loc with
  | some .directory => .error .isDirectory
  | some (.link _) => .error .tooManyLinks
  | _ => .ok (fs.set loc (.file content))

def writeText (fs : FileSystem) (path text : String) : Except FileError FileSystem :=
  fs.write path text.toUTF8

def withoutEndSlashes (path : String) : String :=
  match path.toList.reverse.dropWhile (· == '/') with
  | [] => path
  | cs => String.ofList cs.reverse

def makeDirectory (fs : FileSystem) (path : String) : Except FileError FileSystem := do
  let loc ← fs.locate false (withoutEndSlashes path)
  match fs.get? loc with
  | some _ => .error .alreadyExists
  | none => .ok (fs.set loc .directory)

/-- A path and the paths of the directories around it, from the inside out. -/
def ancestors : (fuel : Nat) → String → List String
  | 0, _ => []
  | fuel + 1, path =>
    if path.isEmpty then [] else path :: ((Path.parent? path).map (ancestors fuel)).getD []

/-- Makes the first of these directories, after the others where they are missing. Directories that
were made stay when a later one fails. -/
def makeDirectories (fs : FileSystem) : List String → FileSystem × Except FileError Unit
  | [] => (fs, .ok ())
  | path :: around =>
    match fs.makeDirectory path with
    | .ok fs => (fs, .ok ())
    | .error .notFound =>
      match fs.makeDirectories around with
      | (fs, .error e) => (fs, .error e)
      | (fs, .ok ()) =>
        match fs.makeDirectory path with
        | .ok fs => (fs, .ok ())
        | .error e => (fs, if fs.isDirectory path then .ok () else .error e)
    | .error e => (fs, if fs.isDirectory path then .ok () else .error e)

/-- Makes a directory and those around it that are missing. -/
def makeDirectoryAll (fs : FileSystem) (path : String) : FileSystem × Except FileError Unit :=
  fs.makeDirectories (ancestors (path.length + 1) path)

def withFile (fs : FileSystem) (path : String) (content : ByteArray) : FileSystem :=
  let fs := ((Path.parent? path).map fun p => (fs.makeDirectoryAll p).1).getD fs
  (fs.write path content).toOption.getD fs

/-- The file system of these files, their paths seen from a working directory. -/
def ofFiles (workingDirectory : String) (files : List (String × ByteArray)) : FileSystem :=
  let empty := ((FileSystem.mk [] []).makeDirectoryAll workingDirectory).1
  let fs := { empty with workingDirectory := (empty.resolve workingDirectory).toOption.getD [] }
  files.foldl (fun fs (path, content) => fs.withFile path content) fs

/-- The entries that are new or other than before, directories before what stands in them. -/
def changesSince (fs before : FileSystem) : List (Location × Entry) :=
  fs.entries.filter fun (loc, e) => before.get? loc != some e

def absolutePath (loc : Location) : String :=
  "/" ++ Path.joinSegments loc

end FileSystem

end MessageKeys

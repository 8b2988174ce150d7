import MessageKeys.Files.FileSystem
import MessageKeys.Keys.Aggregate
import MessageKeys.Project.Scan

namespace MessageKeys.Collect

def quoteChar : Char → String
  | '"' => "\\\""
  | '\\' => "\\\\"
  | '\n' => "\\n"
  | '\r' => "\\r"
  | '\t' => "\\t"
  | '\x00' => "\\0"
  | c => c.toString

def quoted (s : String) : String :=
  "\"" ++ String.join (s.toList.map quoteChar) ++ "\""

def extractFile (fs : FileSystem) (path : String) : Except Failure Extraction :=
  match fs.readText path with
  | .ok text => tryExtract text path
  | .error e => .error ⟨path, none, s!"Failed to read file: {e.message}"⟩

def lineField : Option Nat → String
  | some n => s!"Some({n})"
  | none => "None"

def extractedEvent (path : String) (e : Extraction) : Log.Event :=
  ⟨.debug, "extracted",
    [("file", quoted path), ("keys", toString e.keys.size), ("warnings", toString e.warnings.length),
      ("errors", toString e.errors.length)]⟩

def unparsableEvent (f : Failure) : Log.Event :=
  ⟨.warn, s!"skipping unparsable source: {f.message}", [("file", f.file), ("line", lineField f.line)]⟩

def fileEvent (fs : FileSystem) (path : String) : Log.Event :=
  match fs.readText path with
  | .error e => ⟨.warn, s!"cannot read source file: {e.message}", [("file", quoted path)]⟩
  | .ok _ =>
    match extractFile fs path with
    | .ok e => extractedEvent path e
    | .error f => unparsableEvent f

def sortPaths (paths : List String) : List String :=
  paths.mergeSort fun a b => !(b < a)

def extractFiles (fs : FileSystem) (paths : List String) : Aggregate :=
  .ofResults ((sortPaths paths).map (extractFile fs))

def events (fs : FileSystem) (paths : List String) : List Log.Event :=
  paths.map (fileEvent fs)

end MessageKeys.Collect

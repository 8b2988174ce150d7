import MessageKeys.Files.FileSystem
import MessageKeys.Json.Value
import MessageKeys.Keys.Reason

namespace MessageKeys

open Json (Value)

/-- What stands for a line that is not known. -/
def unknownLine : String := "unknown"

def Record.toJson (r : Record) : Value :=
  .object [("key", .string r.key), ("reason", .string r.reason.message), ("filePath", .string r.file),
    ("line", (r.line.map Value.nat).getD (.string unknownLine))]

structure Report where
  keys : List String
  warnings : List Record
  errors : List Record
deriving Repr, DecidableEq

namespace Report

def keysFile : String := "keys.json"

def warningsFile : String := "warnings.json"

def errorsFile : String := "errors.json"

/-- The name and the text of each file, in the order in which they are written. -/
def files (r : Report) : List (String × String) :=
  [(keysFile, text (.strings r.keys)), (warningsFile, text (.array (r.warnings.map Record.toJson))),
    (errorsFile, text (.array (r.errors.map Record.toJson)))]
where
  text (v : Value) : String := v.pretty ++ "\n"

/-- Writes files into a directory until one fails; gives their paths. -/
def writeFiles (fs : FileSystem) (dir : String) :
    List (String × String) → FileSystem × Except Problem (List String)
  | [] => (fs, .ok [])
  | (name, text) :: rest =>
    let path := Path.join dir name
    match fs.writeText path text with
    | .error e => (fs, .error ⟨[s!"Failed to write file: {path}"], some e.message⟩)
    | .ok fs =>
      let (fs, result) := writeFiles fs dir rest
      (fs, result.map (path :: ·))

/-- Writes the three files into a directory, which is made if it is missing. -/
def write (r : Report) (fs : FileSystem) (dir : String) :
    FileSystem × Except Problem (List String) :=
  match fs.makeDirectoryAll dir with
  | (fs, .error e) => (fs, .error ⟨[s!"Failed to create directory: {dir}"], some e.message⟩)
  | (fs, .ok ()) => writeFiles fs dir r.files

end Report

end MessageKeys

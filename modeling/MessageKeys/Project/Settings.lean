import MessageKeys.Files.FileSystem
import MessageKeys.Glob.Pattern
import MessageKeys.Json.Read

namespace MessageKeys

structure Settings where
  includes : List String := []
  ignores : List String := ["**/node_modules/**", "**/dist/**", "**/build/**"]
  ignoreTestFiles : Bool := true
  sourceRoot : String := "./"
  outputDir : String := "./i18n-extract"
  existingKeys : Option String := none
deriving Repr, DecidableEq

namespace Settings

open Json (Value Reader)

def fileName : String := ".keyscanrc.json"

inductive Field where
  | includes
  | ignores
  | ignoreTestFiles
  | sourceRoot
  | outputDir
  | existingKeys
deriving Repr, DecidableEq

namespace Field

def name : Field → String
  | includes => "includes"
  | ignores => "ignores"
  | ignoreTestFiles => "ignoreTestFiles"
  | sourceRoot => "sourceRoot"
  | outputDir => "outputDir"
  | existingKeys => "existingKeys"

/-- All fields in the order in which they are written. -/
def all : List Field := [includes, ignores, ignoreTestFiles, sourceRoot, outputDir, existingKeys]

def ofName? (name : String) : Option Field := all.find? (·.name == name)

end Field

/-- The value of a field; one that is absent is not written. -/
def field? (s : Settings) : Field → Option Value
  | .includes => some (.strings s.includes)
  | .ignores => some (.strings s.ignores)
  | .ignoreTestFiles => some (.bool s.ignoreTestFiles)
  | .sourceRoot => some (.string s.sourceRoot)
  | .outputDir => some (.string s.outputDir)
  | .existingKeys => s.existingKeys.map .string

def toJson (s : Settings) : Value :=
  .object (Field.all.filterMap fun f => (s.field? f).map (f.name, ·))

def stringsOf? : List Value → Option (List String)
  | [] => some []
  | .string s :: vs => (stringsOf? vs).map (s :: ·)
  | _ => none

/-- Sets a field, if the value is of its kind. -/
def setField? (s : Settings) : Field → Value → Option Settings
  | .includes, .array vs => (stringsOf? vs).map fun ss => { s with includes := ss }
  | .ignores, .array vs => (stringsOf? vs).map fun ss => { s with ignores := ss }
  | .ignoreTestFiles, .bool b => some { s with ignoreTestFiles := b }
  | .sourceRoot, .string t => some { s with sourceRoot := t }
  | .outputDir, .string t => some { s with outputDir := t }
  | .existingKeys, .string t => some { s with existingKeys := some t }
  | .existingKeys, .null => some { s with existingKeys := none }
  | _, _ => none

def setFields? : Settings → List (Field × Value) → Option Settings
  | s, [] => some s
  | s, (f, v) :: fvs => (s.setField? f v).bind (setFields? · fvs)

/-- The value of a member: kept if it is a field's, otherwise passed over. -/
def readMemberValue (size : Nat) (name : String) : Reader (Option (Field × Value)) := fun cs =>
  match Field.ofName? name with
  | some f =>
    (Json.readValue .kept (Json.Limits.kept.depth - 1) cs).map fun (v, rest) => (some (f, v), rest)
  | none => (Json.readValue (.passedOver size) size cs).map fun (_, rest) => (none, rest)

/-- No field may be given twice. -/
def ofMembers? (members : List (String × Option (Field × Value))) : Option Settings :=
  let fields := members.filterMap (·.2)
  if (fields.map (·.1)).Nodup then setFields? {} fields else none

/-- The values of the first fields in order. -/
def ofList? (vs : List Value) : Option Settings :=
  if vs.length ≤ Field.all.length then setFields? {} (Field.all.zip vs) else none

/-- Reads settings from a text: an object of fields and other members, or a list of the fields'
values. -/
def parse? (cs : List Char) : Option Settings :=
  match Json.skipSpace cs with
  | '\x7b' :: rest =>
    let members := Json.readList (Json.readMember true (readMemberValue cs.length)) '\x7d' rest
    (members.bind Json.atEnd).bind ofMembers?
  | '[' :: rest =>
    let values := Json.readList (Json.readValue .kept (Json.Limits.kept.depth - 1)) ']' rest
    (values.bind Json.atEnd).bind ofList?
  | _ => none

/-- Refuses the first of these that is no pattern. -/
def checkPatterns (member : String) : List String → Except Problem Unit
  | [] => .ok ()
  | p :: ps =>
    match Glob.Pattern.parse p with
    | .ok _ => checkPatterns member ps
    | .error e => .error ⟨[s!"Invalid glob pattern in '{member}': \"{p}\""], some e.message⟩

/-- All ignores have to be patterns, and the includes that look like one. -/
def validate (s : Settings) : Except Problem Unit := do
  checkPatterns Field.ignores.name s.ignores
  checkPatterns Field.includes.name (s.includes.filter Glob.isGlob)

/-- The text of a settings file with the default values. -/
def defaultText : String := (toJson {}).pretty

/-- The settings file of a directory or of the nearest one around it; the search ends where a
repository begins. -/
def findFrom (fs : FileSystem) : (fuel : Nat) → (dir : String) → Option String
  | 0, _ => none
  | fuel + 1, dir =>
    let path := Path.join dir fileName
    if fs.pathExists path then some path
    else if fs.pathExists (Path.join dir ".git") then none
    else (Path.parent? dir).bind (findFrom fs fuel)

def find? (fs : FileSystem) (dir : String) : Option String :=
  findFrom fs (dir.length + 2) dir

structure Loaded where
  settings : Settings
  /-- The file they were read from; none if they are the default ones. -/
  file : Option String
deriving Repr, DecidableEq

def loadFile (fs : FileSystem) (path : String) : Except Problem Settings :=
  match fs.readText path with
  | .error e => .error ⟨[s!"Failed to read config file: {path}"], some e.message⟩
  | .ok text =>
    match parse? text.toList with
    | none => .error ⟨[s!"Failed to parse config file: {path}"], none⟩
    | some s => s.validate.map fun _ => s

def load (fs : FileSystem) (dir : String) : Except Problem Loaded :=
  match find? fs dir with
  | none => .ok ⟨{}, none⟩
  | some path => (loadFile fs path).map (⟨·, some path⟩)

end Settings

end MessageKeys

import MessageKeys.Files.FileSystem
import MessageKeys.Json.Read
import MessageKeys.Text.StringSet

namespace MessageKeys.Catalogue

open Json (Value)

/-- The key of a member inside a member. -/
def extendKey (key name : String) : String :=
  if key.isEmpty then name else key ++ "." ++ name

mutual

/-- The keys of a value at a key. The names on the way down to a value that is no object are joined
with dots; empty names at the start do not count. -/
def flatten (key : String) : Value → List String
  | .object members => flattenMembers key members
  | _ => if key.isEmpty then [] else [key]

def flattenMembers (key : String) : List (String × Value) → List String
  | [] => []
  | (name, v) :: ms => flatten (extendKey key name) v ++ flattenMembers key ms

end

/-- The items of a list of strings; the first other item is refused. -/
def strings : List Value → Except Problem (List String)
  | [] => .ok []
  | .string s :: vs => (strings vs).map (s :: ·)
  | v :: _ => .error (.ofCause s!"Expected an array of strings, found {v.compact}")

def keysOf : Value → Except Problem StringSet
  | .array items => (strings items).map StringSet.ofList
  | .object members => .ok (StringSet.ofList (flattenMembers "" members))
  | _ => .error (.ofCause "Root must be an array of keys or an object")

def load (fs : FileSystem) (path : String) : Except Problem StringSet :=
  match fs.readText path with
  | .error e => .error ⟨[s!"Failed to read existing keys file: {path}"], some e.message⟩
  | .ok text =>
    match Value.parse? text.toList with
    | none => .error ⟨[s!"Failed to parse existing keys file: {path}"], none⟩
    | some v => inContext s!"Unsupported existing keys file: {path}" (keysOf v)

end MessageKeys.Catalogue

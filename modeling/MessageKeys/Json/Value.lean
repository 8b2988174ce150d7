import MessageKeys.Json.Number

namespace MessageKeys.Json

inductive Value where
  | null
  | bool (b : Bool)
  | number (n : Number)
  | string (s : String)
  | array (items : List Value)
  | object (members : List (String × Value))
deriving Repr

namespace Value

instance : Inhabited Value := ⟨null⟩

def nat (n : Nat) : Value := number (.integer n)

def strings (ss : List String) : Value := array (ss.map string)

end Value

def hexDigit (n : Nat) : Char :=
  Nat.digitChar (n % 16)

def escape (c : Char) : List Char :=
  if c = '"' then ['\\', '"']
  else if c = '\\' then ['\\', '\\']
  else if c = '\x08' then ['\\', 'b']
  else if c = '\x0c' then ['\\', 'f']
  else if c = '\n' then ['\\', 'n']
  else if c = '\r' then ['\\', 'r']
  else if c = '\t' then ['\\', 't']
  else if c.toNat < 0x20 then ['\\', 'u', '0', '0', hexDigit (c.toNat / 16), hexDigit c.toNat]
  else [c]

def quote (s : String) : List Char :=
  '"' :: (s.toList.flatMap escape ++ ['"'])

structure Layout where
  /-- What stands before an item at a depth, and before the bracket that ends its list. -/
  lineBreak : (depth : Nat) → List Char
  colon : List Char

namespace Layout

def compact : Layout := ⟨fun _ => [], [':']⟩

def pretty : Layout := ⟨fun depth => '\n' :: List.replicate (2 * depth) ' ', [':', ' ']⟩

end Layout

namespace Value

mutual

def write (l : Layout) (depth : Nat) : Value → List Char
  | null => "null".toList
  | bool true => "true".toList
  | bool false => "false".toList
  | number n => n.write
  | string s => quote s
  | array [] => ['[', ']']
  | array (v :: vs) =>
    '[' :: (l.lineBreak (depth + 1) ++ (write l (depth + 1) v ++ (writeItems l depth vs ++ [']'])))
  | object [] => ['\x7b', '\x7d']
  | object ((name, v) :: ms) =>
    '\x7b' :: (l.lineBreak (depth + 1) ++ (quote name ++ (l.colon ++
      (write l (depth + 1) v ++ (writeMembers l depth ms ++ ['\x7d'])))))

/-- The items after the first one, up to the closing bracket. -/
def writeItems (l : Layout) (depth : Nat) : List Value → List Char
  | [] => l.lineBreak depth
  | v :: vs => ',' :: (l.lineBreak (depth + 1) ++ (write l (depth + 1) v ++ writeItems l depth vs))

/-- The members after the first one, up to the closing brace. -/
def writeMembers (l : Layout) (depth : Nat) : List (String × Value) → List Char
  | [] => l.lineBreak depth
  | (name, v) :: ms =>
    ',' :: (l.lineBreak (depth + 1) ++ (quote name ++ (l.colon ++
      (write l (depth + 1) v ++ writeMembers l depth ms))))

end

def compact (v : Value) : String := String.ofList (v.write .compact 0)

def pretty (v : Value) : String := String.ofList (v.write .pretty 0)

end Value

end MessageKeys.Json

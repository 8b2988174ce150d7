import MessageKeys.Json.Value
import MessageKeys.Text.Reference

namespace MessageKeys.Json

open Text (hexDigit? decimalDigit?)

abbrev Reader (α : Type) := List Char → Option (α × List Char)

/-- What is asked of a value beyond the grammar. -/
structure Limits where
  depth : Nat
  numbersInRange : Bool
  pairedSurrogates : Bool

namespace Limits

def kept : Limits := ⟨127, true, true⟩

/-- For values that are passed over in a text of this length. -/
def passedOver (size : Nat) : Limits := ⟨size, false, false⟩

end Limits

def isSpace (c : Char) : Bool :=
  c = ' ' || c = '\t' || c = '\n' || c = '\r'

def skipSpace (cs : List Char) : List Char :=
  cs.dropWhile isSpace

/-- Takes a word from the front of a text. -/
def dropWord? : (word : List Char) → List Char → Option (List Char)
  | [], cs => some cs
  | w :: ws, c :: cs => if w = c then dropWord? ws cs else none
  | _ :: _, [] => none

/-- The code unit of four digits of base sixteen. -/
def readUnit : Reader Nat
  | a :: b :: c :: d :: cs => do
    return (((← hexDigit? a) * 16 + (← hexDigit? b)) * 256 + ((← hexDigit? c) * 16 + (← hexDigit? d)), cs)
  | _ => none

/-- The character that one letter after a backslash stands for. -/
def simpleEscape? : Char → Option Char
  | '"' => some '"'
  | '\\' => some '\\'
  | '/' => some '/'
  | 'b' => some '\x08'
  | 'f' => some '\x0c'
  | 'n' => some '\n'
  | 'r' => some '\r'
  | 't' => some '\t'
  | _ => none

def isHighSurrogate (n : Nat) : Bool := 0xD800 ≤ n && n < 0xDC00

def isLowSurrogate (n : Nat) : Bool := 0xDC00 ≤ n && n < 0xE000

/-- The character after `\u`. A surrogate stands in a pair, unless pairs are not asked for. -/
def readUnicodeEscape (paired : Bool) : Reader Char := fun cs => do
  let (high, rest) ← readUnit cs
  if !paired then return (Char.ofNat high, rest)
  else if isLowSurrogate high then none
  else if isHighSurrogate high then
    match rest with
    | '\\' :: 'u' :: rest =>
      let (low, rest) ← readUnit rest
      if isLowSurrogate low then
        return (Char.ofNat (0x10000 + (high - 0xD800) * 0x400 + (low - 0xDC00)), rest)
      else none
    | _ => none
  else return (Char.ofNat high, rest)

/-- One character of a string, as it is or escaped; not the quote that ends it. -/
def readCharacter (paired : Bool) : Reader Char
  | '\\' :: 'u' :: cs => readUnicodeEscape paired cs
  | '\\' :: c :: cs => (simpleEscape? c).map (·, cs)
  | c :: cs => if c = '\\' || c.toNat < 0x20 then none else some (c, cs)
  | [] => none

def readCharacters (paired : Bool) : (fuel : Nat) → Reader (List Char)
  | 0, _ => none
  | _ + 1, '"' :: cs => some ([], cs)
  | fuel + 1, cs => do
    let (c, rest) ← readCharacter paired cs
    let (tail, rest) ← readCharacters paired fuel rest
    return (c :: tail, rest)

def readString (paired : Bool) : Reader String
  | '"' :: cs => do
    let (chars, rest) ← readCharacters paired cs.length cs
    return (String.ofList chars, rest)
  | _ => none

/-- The digits at the front of a text. -/
def takeDigits : List Char → List Nat × List Char
  | [] => ([], [])
  | c :: cs =>
    match decimalDigit? c with
    | some d => let (ds, rest) := takeDigits cs; (d :: ds, rest)
    | none => ([], c :: cs)

def takeDigits1? : Reader (List Nat) := fun cs =>
  match takeDigits cs with
  | ([], _) => none
  | digits => some digits

/-- The digits before the point: one, or several of which the first is not zero. -/
def readWhole : Reader (List Nat) := fun cs => do
  let (ds, rest) ← takeDigits1? cs
  match ds with
  | 0 :: _ :: _ => none
  | _ => return (ds, rest)

def readFraction : Reader (Option (List Nat))
  | '.' :: cs => do
    let (ds, rest) ← takeDigits1? cs
    return (some ds, rest)
  | cs => some (none, cs)

def readExponentDigits (negative : Bool) : Reader (Option Int) := fun cs => do
  let (ds, rest) ← takeDigits1? cs
  let n : Nat := ds.foldl (fun n d => n * 10 + d) 0
  return (some (if negative then -(n : Int) else n), rest)

def readExponent : Reader (Option Int)
  | c :: cs =>
    if c = 'e' || c = 'E' then
      match cs with
      | '+' :: cs => readExponentDigits false cs
      | '-' :: cs => readExponentDigits true cs
      | cs => readExponentDigits false cs
    else some (none, c :: cs)
  | [] => some (none, [])

def readNumeral : Reader Numeral := fun cs => do
  let (negative, cs) := match cs with
    | '-' :: cs => (true, cs)
    | cs => (false, cs)
  let (whole, cs) ← readWhole cs
  let (fraction, cs) ← readFraction cs
  let (exponent, cs) ← readExponent cs
  return (⟨negative, whole, fraction, exponent⟩, cs)

/-- A number; one that is out of range counts as null where range is not asked for. -/
def readNumber (inRange : Bool) : Reader Value := fun cs => do
  let (n, rest) ← readNumeral cs
  if inRange then return (.number (← n.value?), rest)
  else return (((n.value?).map Value.number).getD .null, rest)

section Lists

variable {α : Type} (item : Reader α) (close : Char)

/-- Items after a first one, each after a comma, up to the closing bracket. -/
def readRest : (fuel : Nat) → Reader (List α)
  | 0, _ => none
  | fuel + 1, cs =>
    match skipSpace cs with
    | ',' :: cs => do
      let (x, rest) ← item (skipSpace cs)
      let (xs, rest) ← readRest fuel rest
      return (x :: xs, rest)
    | c :: cs => if c = close then some ([], cs) else none
    | [] => none

/-- Items with commas between them, up to the closing bracket. -/
def readList : Reader (List α) := fun cs =>
  match skipSpace cs with
  | [] => none
  | c :: cs =>
    if c = close then some ([], cs)
    else do
      let (x, rest) ← item (c :: cs)
      let (xs, rest) ← readRest item close cs.length rest
      return (x :: xs, rest)

end Lists

/-- A name, a colon, and a value that the name may decide how to read. -/
def readMember {α : Type} (paired : Bool) (value : String → Reader α) :
    Reader (String × α) := fun cs => do
  let (name, rest) ← readString paired cs
  match skipSpace rest with
  | ':' :: rest =>
    let (v, rest) ← value name (skipSpace rest)
    return ((name, v), rest)
  | _ => none

/-- Sets a member. One that is there already keeps its place. -/
def setMember (name : String) (v : Value) : List (String × Value) → List (String × Value)
  | [] => [(name, v)]
  | (n, w) :: ms => if n = name then (n, v) :: ms else (n, w) :: setMember name v ms

/-- Of several members of one name the last one counts, at the place of the first. -/
def dedupMembers (ms : List (String × Value)) : List (String × Value) :=
  ms.foldl (fun done (name, v) => setMember name v done) []

/-- A value that does not begin with a blank. -/
def readValue (limits : Limits) : (depth : Nat) → Reader Value
  | depth, cs =>
    match cs with
    | 'n' :: cs => (dropWord? "ull".toList cs).map (.null, ·)
    | 't' :: cs => (dropWord? "rue".toList cs).map (.bool true, ·)
    | 'f' :: cs => (dropWord? "alse".toList cs).map (.bool false, ·)
    | '"' :: cs =>
      (readString limits.pairedSurrogates ('"' :: cs)).map fun (s, rest) => (.string s, rest)
    | '[' :: cs =>
      match depth with
      | 0 => none
      | depth + 1 =>
        (readList (readValue limits depth) ']' cs).map fun (vs, rest) => (.array vs, rest)
    | '\x7b' :: cs =>
      match depth with
      | 0 => none
      | depth + 1 =>
        (readList (readMember limits.pairedSurrogates fun _ => readValue limits depth) '\x7d' cs).map
          fun (ms, rest) => (.object (dedupMembers ms), rest)
    | cs => readNumber limits.numbersInRange cs

def atEnd {α : Type} : α × List Char → Option α
  | (a, rest) => if (skipSpace rest).isEmpty then some a else none

def Value.parse? (cs : List Char) : Option Value :=
  (readValue .kept Limits.kept.depth (skipSpace cs)).bind atEnd

end MessageKeys.Json

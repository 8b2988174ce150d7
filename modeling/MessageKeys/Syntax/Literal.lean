import MessageKeys.Syntax.Token
import MessageKeys.Text.Identifier
import MessageKeys.Text.Reference

namespace MessageKeys.Syntax

open Text (CodeUnits hexDigit? isIdentStart isIdentPart)

/-- How far an escape has been read. -/
inductive Escape where
  | begun
  | hex (left value : Nat)
  | unicode
  | fixed (left value : Nat)
  | braced (value digits : Nat)
deriving Repr, DecidableEq

/-- What one more character makes of an escape. -/
inductive EscapeStep where
  | more (e : Escape)
  | units (us : CodeUnits)
  | carriage
  | zero
  | octal
  | malformed
deriving Repr, DecidableEq

namespace Escape

def step : Escape → Char → EscapeStep
  | begun, 'n' => .units [10]
  | begun, 't' => .units [9]
  | begun, 'r' => .units [13]
  | begun, 'b' => .units [8]
  | begun, 'v' => .units [11]
  | begun, 'f' => .units [12]
  | begun, 'x' => .more (.hex 2 0)
  | begun, 'u' => .more .unicode
  | begun, '0' => .zero
  | begun, '\r' => .carriage
  | begun, c =>
    if '1' ≤ c ∧ c ≤ '7' then .octal
    else if c = '\n' ∨ c = '\u2028' ∨ c = '\u2029' then .units []
    else .units (CodeUnits.ofCodePoint c.toNat)
  | hex left value, c =>
    match hexDigit? c with
    | none => .malformed
    | some d =>
      let value := value * 16 + d
      if left ≤ 1 then .units [value.toUInt16] else .more (.hex (left - 1) value)
  | unicode, '\x7b' => .more (.braced 0 0)
  | unicode, c =>
    match hexDigit? c with
    | none => .malformed
    | some d => .more (.fixed 3 d)
  | fixed left value, c =>
    match hexDigit? c with
    | none => .malformed
    | some d =>
      let value := value * 16 + d
      if left ≤ 1 then .units [value.toUInt16] else .more (.fixed (left - 1) value)
  | braced value digits, '\x7d' =>
    if digits = 0 then .malformed else .units (CodeUnits.ofCodePoint value)
  | braced value digits, c =>
    match hexDigit? c with
    | none => .malformed
    | some d =>
      let value := value * 16 + d
      if value > 0x10FFFF then .malformed else .more (.braced value (digits + 1))

end Escape

/-- Where the reading of a string or template stands. -/
inductive LiteralMode where
  | plain
  | escape (start : Nat) (e : Escape)
  /-- After `\0`, which a digit may not follow. -/
  | zero (start : Nat)
  /-- After a carriage return, with which a line feed belongs together. -/
  | carriage
  /-- After a `$`, which opens a hole if a brace follows. -/
  | dollar
deriving Repr, DecidableEq

/-- A string that has been read: its units and the place after it. -/
structure ScannedString where
  units : CodeUnits
  stop : Cursor
  faults : List Fault
  failure : Option Fault

/-- Reads the inside of a string up to its closing quote. `units` are collected in reverse. -/
def scanString (quote : Char) (start : Nat) :
    LiteralMode → (units : CodeUnits) → List Fault → (offset : Nat) → List Char → ScannedString
  | _, units, faults, offset, [] =>
    ⟨units.reverse, ⟨offset, []⟩, faults ++ [⟨start, .unterminatedString⟩], none⟩
  | mode, units, faults, offset, c :: cs =>
    let next := offset + c.utf8Size
    let plainly (units : CodeUnits) : ScannedString :=
      if c = quote then ⟨units.reverse, ⟨next, cs⟩, faults, none⟩
      else if c = '\n' ∨ c = '\r' then
        ⟨units.reverse, ⟨offset, c :: cs⟩, faults ++ [⟨start, .unterminatedString⟩], none⟩
      else if c = '\\' then scanString quote start (.escape offset .begun) units faults next cs
      else scanString quote start .plain ((CodeUnits.ofCodePoint c.toNat).reverse ++ units) faults next cs
    match mode with
    | .plain | .dollar => plainly units
    | .carriage =>
      if c = '\n' then scanString quote start .plain units faults next cs else plainly units
    | .zero at0 =>
      if '0' ≤ c ∧ c ≤ '7' then
        scanString quote start .plain (0 :: units) (faults ++ [⟨at0, .legacyOctal⟩]) next cs
      else plainly (0 :: units)
    | .escape at0 e =>
      match e.step c with
      | .more e => scanString quote start (.escape at0 e) units faults next cs
      | .units us => scanString quote start .plain (us.reverse ++ units) faults next cs
      | .carriage => scanString quote start .carriage units faults next cs
      | .zero => scanString quote start (.zero at0) units faults next cs
      | .octal => scanString quote start .plain units (faults ++ [⟨at0, .legacyOctal⟩]) next cs
      | .malformed => ⟨units.reverse, ⟨offset, c :: cs⟩, faults, some ⟨at0, .malformedEscape⟩⟩

/-- A stretch of a template that has been read. -/
structure ScannedTemplate where
  segment : Segment
  last : Bool
  malformed : Option Fault
  stop : Cursor

/-- What has been collected of a template stretch, in reverse. -/
structure TemplateText where
  cooked : CodeUnits
  raw : List Char
  malformed : Option Fault

namespace TemplateText

def empty : TemplateText := ⟨[], [], none⟩

def push (t : TemplateText) (us : CodeUnits) (raw : Char) : TemplateText :=
  { t with cooked := us.reverse ++ t.cooked, raw := raw :: t.raw }

def spoil (t : TemplateText) (offset : Nat) : TemplateText :=
  { t with malformed := t.malformed <|> some ⟨offset, .malformedEscape⟩ }

def finish (t : TemplateText) (last : Bool) (stop : Cursor) : ScannedTemplate :=
  let cooked := if t.malformed.isSome then none else some t.cooked.reverse
  ⟨⟨cooked, String.ofList t.raw.reverse⟩, last, t.malformed, stop⟩

end TemplateText

/-- Reads a template up to the next hole or its closing quote. A line break of any spelling reads as
a line feed. Gives nothing when the text ends first. -/
def scanTemplate? : LiteralMode → TemplateText → (offset : Nat) → List Char → Option ScannedTemplate
  | _, _, _, [] => none
  | mode, t, offset, c :: cs =>
    let next := offset + c.utf8Size
    let raw := if c = '\r' then '\n' else c
    let plainly (t : TemplateText) : Option ScannedTemplate :=
      if c = '`' then some (t.finish true ⟨next, cs⟩)
      else if c = '$' then scanTemplate? .dollar t next cs
      else if c = '\\' then
        scanTemplate? (.escape offset .begun) { t with raw := '\\' :: t.raw } next cs
      else if c = '\r' then scanTemplate? .carriage (t.push [10] '\n') next cs
      else scanTemplate? .plain (t.push (CodeUnits.ofCodePoint c.toNat) c) next cs
    match mode with
    | .plain => plainly t
    | .carriage => if c = '\n' then scanTemplate? .plain t next cs else plainly t
    | .dollar =>
      if c = '\x7b' then some (t.finish false ⟨next, cs⟩) else plainly (t.push [36] '$')
    | .zero at0 =>
      let t := { t with cooked := 0 :: t.cooked }
      if '0' ≤ c ∧ c ≤ '7' then plainly (t.spoil at0) else plainly t
    | .escape at0 e =>
      match e.step c with
      | .more e => scanTemplate? (.escape at0 e) { t with raw := raw :: t.raw } next cs
      | .units us => scanTemplate? .plain (t.push us raw) next cs
      | .carriage => scanTemplate? .carriage (t.push [] raw) next cs
      | .zero => scanTemplate? (.zero at0) (t.push [] raw) next cs
      | .octal => scanTemplate? .plain ((t.push [] raw).spoil at0) next cs
      | .malformed => plainly (t.spoil at0)

/-- A run of digits that may hold separators. -/
structure DigitRun where
  chars : Nat
  digits : Nat
  misplaced : Bool
  rest : List Char

/-- Reads digits. A separator is misplaced unless it stands between two digits. -/
def scanDigits (isDigit : Char → Bool) : (afterDigit : Bool) → List Char → DigitRun
  | _, [] => ⟨0, 0, false, []⟩
  | afterDigit, c :: cs =>
    if c = '_' then
      let run := scanDigits isDigit false cs
      let bad := !afterDigit || !(cs.head?.any isDigit)
      { run with chars := run.chars + 1, misplaced := run.misplaced || bad }
    else if isDigit c then
      let run := scanDigits isDigit true cs
      { run with chars := run.chars + 1, digits := run.digits + 1 }
    else ⟨0, 0, false, c :: cs⟩

/-- A number that has been read: how many characters it takes and what is wrong with it. -/
structure ScannedNumber where
  chars : Nat
  bigint : Bool
  faults : List Cause
  failure : Option Cause
  rest : List Char

namespace ScannedNumber

/-- A number may not run into an identifier. -/
def sealed (n : ScannedNumber) : ScannedNumber :=
  if n.failure.isNone && n.rest.head?.any isIdentStart then
    { n with failure := some .identifierAfterNumber }
  else n

end ScannedNumber

def separatorFaults (runs : List DigitRun) : List Cause :=
  if runs.any (·.misplaced) then [.misplacedSeparator] else []

/-- Reads the digits of a number with a radix mark, after the mark. -/
def scanRadix (radix : Nat) (isDigit : Char → Bool) (cs : List Char) : ScannedNumber :=
  let run := scanDigits isDigit false cs
  let faults := separatorFaults [run]
  if run.digits = 0 then ⟨run.chars + 2, false, faults, some (.digitExpected radix), run.rest⟩
  else match run.rest with
    | 'n' :: rest => ScannedNumber.sealed ⟨run.chars + 3, true, faults, none, rest⟩
    | rest => ScannedNumber.sealed ⟨run.chars + 2, false, faults, none, rest⟩

/-- Reads an exponent part, if there is one: its length, whether it lacks digits, and the rest. -/
def scanExponent (cs : List Char) : Nat × Bool × List DigitRun × List Char :=
  let digits (n : Nat) (cs : List Char) :=
    let run := scanDigits Char.isDigit false cs
    (n + run.chars, run.digits == 0, [run], run.rest)
  match cs with
  | 'e' :: '+' :: cs | 'e' :: '-' :: cs | 'E' :: '+' :: cs | 'E' :: '-' :: cs => digits 2 cs
  | 'e' :: cs | 'E' :: cs => digits 1 cs
  | cs => (0, false, [], cs)

def scanDecimal (cs : List Char) : ScannedNumber :=
  let whole := scanDigits Char.isDigit false cs
  let legacy : List Cause := match cs with
    | '0' :: c :: _ =>
      if c.isDigit || c = '_' then
        if (cs.take whole.chars).any fun d => d = '8' || d = '9' then [.legacyDecimal]
        else [.legacyOctal]
      else []
    | _ => []
  let (fraction, afterFraction) := match whole.rest with
    | '.' :: rest =>
      let run := scanDigits Char.isDigit false rest
      ([{ run with chars := run.chars + 1 }], run.rest)
    | rest => ([], rest)
  let (exponentChars, exponentEmpty, exponent, rest) := scanExponent afterFraction
  let chars := fraction.foldl (fun n run => n + run.chars) whole.chars + exponentChars
  let faults := legacy ++ separatorFaults (whole :: (fraction ++ exponent))
  if exponentEmpty then ⟨chars, false, faults, some (.digitExpected 10), rest⟩
  else match fraction, exponentChars, rest with
    | [], 0, 'n' :: rest => ScannedNumber.sealed ⟨chars + 1, true, faults, none, rest⟩
    | _, _, rest => ScannedNumber.sealed ⟨chars, false, faults, none, rest⟩

def isOctalDigit (c : Char) : Bool := '0' ≤ c && c ≤ '7'

def isBinaryDigit (c : Char) : Bool := c == '0' || c == '1'

def scanNumber : List Char → ScannedNumber
  | '0' :: 'x' :: cs | '0' :: 'X' :: cs => scanRadix 16 (fun c => (hexDigit? c).isSome) cs
  | '0' :: 'o' :: cs | '0' :: 'O' :: cs => scanRadix 8 isOctalDigit cs
  | '0' :: 'b' :: cs | '0' :: 'B' :: cs => scanRadix 2 isBinaryDigit cs
  | cs => scanDecimal cs

/-- Reads the body of a regular expression after its first slash; gives the place after the last. -/
def scanRegexpBody? : (escaped inClass : Bool) → (offset : Nat) → List Char → Option Cursor
  | _, _, _, [] => none
  | escaped, inClass, offset, c :: cs =>
    let next := offset + c.utf8Size
    if c = '\n' ∨ c = '\r' ∨ c = '\u2028' ∨ c = '\u2029' then none
    else if escaped then scanRegexpBody? false inClass next cs
    else if c = '\\' then scanRegexpBody? true inClass next cs
    else if c = '[' then scanRegexpBody? false true next cs
    else if c = ']' then scanRegexpBody? false false next cs
    else if c = '/' ∧ !inClass then some ⟨next, cs⟩
    else scanRegexpBody? false inClass next cs

/-- What is wrong with the flags of a regular expression. -/
def regexpFlagFaults (flags : List Char) : List Cause :=
  (if flags.any fun c => flags.count c > 1 then [.repeatedRegexpFlag] else []) ++
  (if flags.all fun c => c ∈ ['d', 'g', 'i', 'm', 's', 'u', 'v', 'y'] then [] else [.unknownRegexpFlag])

end MessageKeys.Syntax

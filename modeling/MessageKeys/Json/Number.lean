import MessageKeys.Number.Shortest

namespace MessageKeys.Json

open Number (Binary64 Decimal)

inductive Number where
  | integer (value : Int)
  | float (negative : Bool) (magnitude : Binary64)
deriving Repr, DecidableEq

/-- The spelling of a number: its digits, the first of them first, and the power of ten after
them. -/
structure Numeral where
  negative : Bool
  whole : List Nat
  fraction : Option (List Nat)
  exponent : Option Int
deriving Repr, DecidableEq

def maxSignificand : Nat := Nat.pow 2 64 - 1

/-- Appends digits to a significand while it stays within bounds; gives it and the digits left
over. -/
def appendDigits : (significand : Nat) → List Nat → Nat × List Nat
  | s, [] => (s, [])
  | s, d :: ds => if s * 10 + d ≤ maxSignificand then appendDigits (s * 10 + d) ds else (s, d :: ds)

namespace Numeral

def ofParts? (negative : Bool) (significand : Nat) (exponent : Int) : Option Number :=
  (Binary64.ofParts? significand exponent).map (.float negative)

/-- The number that a numeral denotes; none if it is too large. -/
def value? (n : Numeral) : Option Number :=
  let (s, rest) := appendDigits 0 n.whole
  match n.fraction, n.exponent with
  | none, none =>
    if rest.isEmpty then
      if !n.negative then some (.integer s)
      else if 0 < s ∧ s ≤ Nat.pow 2 63 then some (.integer (-s))
      else ofParts? true s 0
    else ofParts? n.negative s rest.length
  | fraction, exponent =>
    let digits := fraction.getD []
    let (s, unread) := appendDigits s digits
    let shift : Int := (rest.length : Int) - (digits.length - unread.length : Nat)
    ofParts? n.negative s (shift + exponent.getD 0)

end Numeral

namespace Number

/-- Exponents of the first digit between these two are written without an exponent. -/
def positional : Int × Int := (-5, 15)

/-- Writes digits with a point; `e` is the exponent of the first one. -/
def writePositional (digits : List Char) (e : Int) : List Char :=
  if e < 0 then '0' :: '.' :: (List.replicate (-e - 1).toNat '0' ++ digits)
  else
    let whole := digits.take (e.toNat + 1)
    let padding := List.replicate (e.toNat + 1 - digits.length) '0'
    let fraction := digits.drop (e.toNat + 1)
    whole ++ padding ++ '.' :: (if fraction.isEmpty then ['0'] else fraction)

/-- Writes one digit, a point if more follow, and the exponent with its sign. -/
def writeScientific (digits : List Char) (e : Int) : List Char :=
  let fraction := digits.drop 1
  let point := if fraction.isEmpty then [] else '.' :: fraction
  let sign := if e < 0 then '-' else '+'
  digits.take 1 ++ point ++ 'e' :: sign :: Nat.toDigits 10 e.natAbs

def writeMagnitude (b : Binary64) : List Char :=
  if b.mantissa = 0 then ['0', '.', '0']
  else
    let d := b.shortest.normalize 20
    let digits := Nat.toDigits 10 d.digits
    let e := d.exponent + digits.length - 1
    if positional.1 ≤ e ∧ e ≤ positional.2 then writePositional digits e
    else writeScientific digits e

def write : Number → List Char
  | integer n => if n < 0 then '-' :: Nat.toDigits 10 n.natAbs else Nat.toDigits 10 n.natAbs
  | float negative b => (if negative then ['-'] else []) ++ writeMagnitude b

end Number

end MessageKeys.Json

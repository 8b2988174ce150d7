namespace MessageKeys.Number

/-- The number `mantissa * 2 ^ exponent`. -/
structure Binary64 where
  mantissa : Nat
  exponent : Int
deriving Repr, DecidableEq

/-- The whole number nearest to `n / d`; a half goes to the even neighbour. -/
def roundDiv (n d : Nat) : Nat :=
  let q := n / d
  let r := n % d
  if 2 * r < d then q
  else if d < 2 * r then q + 1
  else q + q % 2

/-- The largest `l` with `2 ^ l ≤ n / d`, for positive `n` and `d`. -/
def floorLog2 (n d : Nat) : Int :=
  let l : Int := (n.log2 : Int) - d.log2
  if d * Nat.pow 2 l.toNat ≤ n * Nat.pow 2 (-l).toNat then l else l - 1

namespace Binary64

def zero : Binary64 := ⟨0, -1074⟩

/-- The nearest number to `n / d`; none if that is beyond the largest one. -/
def ofRatio? (n d : Nat) : Option Binary64 :=
  if n = 0 then some zero
  else
    let q := max (floorLog2 n d - 52) (-1074)
    let m := roundDiv (n * Nat.pow 2 (-q).toNat) (d * Nat.pow 2 q.toNat)
    let (m, q) := if m = Nat.pow 2 53 then (Nat.pow 2 52, q + 1) else (m, q)
    if 971 < q then none else some ⟨m, q⟩

def ofNat? (n : Nat) : Option Binary64 := ofRatio? n 1

def toRatio (b : Binary64) : Nat × Nat :=
  (b.mantissa * Nat.pow 2 b.exponent.toNat, Nat.pow 2 (-b.exponent).toNat)

def mul? (a b : Binary64) : Option Binary64 :=
  ofRatio? (a.toRatio.1 * b.toRatio.1) (a.toRatio.2 * b.toRatio.2)

def div? (a b : Binary64) : Option Binary64 :=
  ofRatio? (a.toRatio.1 * b.toRatio.2) (a.toRatio.2 * b.toRatio.1)

def powerOfTen? (k : Nat) : Option Binary64 := ofNat? (Nat.pow 10 k)

/-- The largest exponent of ten whose power is a number. -/
def maxPower : Nat := 308

/-- Multiplies by a power of ten in one rounded step. -/
def timesPower? (f : Binary64) (k : Nat) : Option Binary64 :=
  if f.mantissa = 0 then some f
  else if maxPower < k then none
  else do (← powerOfTen? k) |> f.mul?

/-- Divides by a power of ten, in rounded steps of at most `10 ^ 308`. -/
def overPower? : (steps : Nat) → Binary64 → (k : Nat) → Option Binary64
  | 0, f, _ => some f
  | steps + 1, f, k =>
    if k ≤ maxPower then do (← powerOfTen? k) |> f.div?
    else do overPower? steps (← f.div? (← powerOfTen? maxPower)) (k - maxPower)

/-- A 64-bit significand times a power of ten. A fourth division leaves nothing of any
significand. -/
def ofParts? (significand : Nat) (exponent : Int) : Option Binary64 := do
  let f ← ofNat? significand
  if 0 ≤ exponent then f.timesPower? exponent.toNat
  else f.overPower? 4 (-exponent).toNat

end Binary64

end MessageKeys.Number

import MessageKeys.Number.Binary64

namespace MessageKeys.Number

/-- The number `digits * 10 ^ exponent`. -/
structure Decimal where
  digits : Nat
  exponent : Int
deriving Repr, DecidableEq

/-- Compares `a * 10 ^ k` with `b * 2 ^ q`. -/
def comparePowers (a : Nat) (k : Int) (b : Nat) (q : Int) : Ordering :=
  compare (a * Nat.pow 10 k.toNat * Nat.pow 2 (-q).toNat)
    (b * Nat.pow 2 q.toNat * Nat.pow 10 (-k).toNat)

namespace Binary64

/-- The ends of the interval of reals that round to a number, and the number, in units of a quarter
of its last bit. -/
def interval (b : Binary64) : Nat × Nat × Nat :=
  let m := 4 * b.mantissa
  let below := if b.mantissa = Nat.pow 2 52 ∧ -1074 < b.exponent then 1 else 2
  (m - below, m, m + 2)

/-- Does a decimal read back as this number? -/
def readsBack (b : Binary64) (d : Decimal) : Bool :=
  let (low, _, high) := b.interval
  let q := b.exponent - 2
  let closed := b.mantissa % 2 = 0
  let atLow := comparePowers d.digits d.exponent low q
  let atHigh := comparePowers d.digits d.exponent high q
  (atLow == .gt || (closed && atLow == .eq)) && (atHigh == .lt || (closed && atHigh == .eq))

/-- Is a number no farther from `digits * 10 ^ k` than from the next multiple of `10 ^ k`? -/
def nearerBelow (b : Binary64) (digits : Nat) (k : Int) : Bool :=
  comparePowers (2 * digits + 1) k (2 * b.interval.2.1) (b.exponent - 2) != .lt

/-- The decimals next to a number on the grid of multiples of `10 ^ k`, the nearer one first. -/
def neighbours (b : Binary64) (k : Int) : List Decimal :=
  let (n, d) := b.toRatio
  let below := n * Nat.pow 10 (-k).toNat / (d * Nat.pow 10 k.toNat)
  if b.nearerBelow below k then [⟨below, k⟩, ⟨below + 1, k⟩] else [⟨below + 1, k⟩, ⟨below, k⟩]

/-- The exponent of the first decimal digit, for a positive number. -/
def leadingPower (b : Binary64) : Int :=
  let (n, d) := b.toRatio
  if d ≤ n then ((Nat.toDigits 10 (n / d)).length : Int) - 1
  else
    let k := (Nat.toDigits 10 (d / n)).length
    if d ≤ n * Nat.pow 10 (k - 1) then -(k - 1 : Int) else -k

/-- The first decimal that reads back, on ever finer grids. -/
def shortestFrom (b : Binary64) : (grids : Nat) → (k : Int) → Decimal
  | 0, k => (b.neighbours k).headD ⟨0, 0⟩
  | grids + 1, k => ((b.neighbours k).find? b.readsBack).getD (b.shortestFrom grids (k - 1))

/-- Seventeen digits always suffice. -/
def shortest (b : Binary64) : Decimal :=
  b.shortestFrom 17 b.leadingPower

end Binary64

namespace Decimal

/-- The same number without zeros at the end of its digits. -/
def normalize : (fuel : Nat) → Decimal → Decimal
  | 0, d => d
  | fuel + 1, d =>
    if d.digits ≠ 0 ∧ d.digits % 10 = 0 then normalize fuel ⟨d.digits / 10, d.exponent + 1⟩ else d

end Decimal

end MessageKeys.Number

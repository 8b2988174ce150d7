import MessageKeys.Json.Read

namespace MessageKeys.Json

open Text (decimalDigit?)
open MessageKeys.Number (Binary64 Decimal)

/-- What may follow a value: the end of the text, a blank, a comma or a closing bracket. -/
def EndsValue (rest : List Char) : Prop :=
  ∀ c ∈ rest.head?, isSpace c = true ∨ c = ',' ∨ c = ']' ∨ c = '\x7d'

/-- A character that may follow a value is none that goes on with a numeral. -/
theorem EndsValue.cases {c : Char} {rest : List Char} (h : EndsValue (c :: rest)) :
    decimalDigit? c = none ∧ c ≠ '.' ∧ c ≠ 'e' ∧ c ≠ 'E' := by
  have hc := h c rfl
  simp only [isSpace, Bool.or_eq_true, decide_eq_true_eq] at hc
  obtain (((rfl | rfl) | rfl) | rfl) | rfl | rfl | rfl := hc <;> decide

/-- What may follow a run of digits: no further digit. -/
def EndsDigits (rest : List Char) : Prop := ∀ c ∈ rest.head?, decimalDigit? c = none

theorem EndsValue.endsDigits {rest : List Char} (h : EndsValue rest) : EndsDigits rest := by
  cases rest with
  | nil => simp [EndsDigits]
  | cons c rest => simp [EndsDigits, h.cases.1]

structure IsDigits (ds : List Char) : Prop where
  ne_nil : ds ≠ []
  digit : ∀ c ∈ ds, c.isDigit = true

/-- Digits that a numeral may begin with: a zero only stands first if it stands alone. -/
structure IsWhole (ds : List Char) : Prop extends IsDigits ds where
  zero : ds.head? = some '0' → ds.tail = []

inductive IsFraction : List Char → Prop
  | absent : IsFraction []
  | digits {ds} : IsDigits ds → IsFraction ('.' :: ds)

inductive IsExponent : List Char → Prop
  | absent : IsExponent []
  | digits {sign ds} : sign = '+' ∨ sign = '-' → IsDigits ds → IsExponent ('e' :: sign :: ds)

inductive IsUnsigned : List Char → Prop
  | mk {whole fraction exponent} : IsWhole whole → IsFraction fraction → IsExponent exponent →
    IsUnsigned (whole ++ (fraction ++ exponent))

inductive IsNumeral : List Char → Prop
  | mk {sign t} : sign = [] ∨ sign = ['-'] → IsUnsigned t → IsNumeral (sign ++ t)

theorem decimalDigit?_of_isDigit {c : Char} (h : c.isDigit = true) :
    decimalDigit? c = some (c.toNat - '0'.toNat) := by
  simp only [Char.isDigit, Bool.and_eq_true, decide_eq_true_eq] at h
  exact if_pos h

theorem takeDigits_append {ds rest : List Char} (hd : ∀ c ∈ ds, c.isDigit = true)
    (hr : EndsDigits rest) :
    takeDigits (ds ++ rest) = (ds.map fun c => c.toNat - '0'.toNat, rest) := by
  induction ds with
  | nil =>
    cases rest with
    | nil => rfl
    | cons c rest => simp [takeDigits, hr c rfl]
  | cons c ds ih =>
    have hc := decimalDigit?_of_isDigit (hd c List.mem_cons_self)
    have hds := ih fun c hc => hd c (List.mem_cons_of_mem _ hc)
    simp [takeDigits, hc, hds]

theorem IsDigits.takeDigits1?_append {ds rest : List Char} (h : IsDigits ds)
    (hr : EndsDigits rest) :
    takeDigits1? (ds ++ rest) = some (ds.map fun c => c.toNat - '0'.toNat, rest) := by
  have htake := takeDigits_append h.digit hr
  cases ds with
  | nil => exact absurd rfl h.ne_nil
  | cons c ds =>
    rw [takeDigits1?, htake]
    rfl

theorem eq_zero_of_isDigit {c : Char} (h : c.isDigit = true) (hc : c.toNat - '0'.toNat = 0) :
    c = '0' := by
  have hge : '0'.toNat ≤ c.toNat := by
    simp only [Char.isDigit, Bool.and_eq_true, decide_eq_true_eq] at h
    exact h.1
  have heq : c.toNat = '0'.toNat := by omega
  rw [← Char.ofNat_toNat c, heq]
  rfl

theorem IsWhole.readWhole_append {ds rest : List Char} (h : IsWhole ds) (hr : EndsDigits rest) :
    readWhole (ds ++ rest) = some (ds.map fun c => c.toNat - '0'.toNat, rest) := by
  have htake := h.takeDigits1?_append hr
  simp only [readWhole, htake, Option.bind_eq_bind, Option.bind_some]
  split
  next hzero =>
    -- The first digit would be a zero that does not stand alone.
    cases ds with
    | nil => cases hzero
    | cons c ds =>
      rw [List.map_cons, List.cons.injEq] at hzero
      have hc : c = '0' := eq_zero_of_isDigit (h.digit c List.mem_cons_self) hzero.1
      have hnil : ds = [] := h.zero (congrArg some hc)
      rw [hnil] at hzero
      cases hzero.2
  · rfl

theorem readFraction_of_ne {rest : List Char} (h : ∀ c ∈ rest.head?, c ≠ '.') :
    readFraction rest = some (none, rest) := by
  unfold readFraction
  split
  next cs => exact absurd rfl (h '.' rfl)
  · rfl

theorem readExponent_of_endsValue {rest : List Char} (h : EndsValue rest) :
    readExponent rest = some (none, rest) := by
  cases rest with
  | nil => rfl
  | cons c rest => simp [readExponent, h.cases]

theorem EndsValue.ne_point {rest : List Char} (h : EndsValue rest) : ∀ c ∈ rest.head?, c ≠ '.' := by
  cases rest with
  | nil => simp
  | cons c rest => simp [h.cases.2.1]

theorem IsFraction.readFraction_append {t : List Char} (h : IsFraction t) :
    ∃ fraction, ∀ rest, EndsDigits rest → (∀ c ∈ rest.head?, c ≠ '.') →
      readFraction (t ++ rest) = some (fraction, rest) := by
  cases h with
  | absent => exact ⟨none, fun rest _ hp => readFraction_of_ne hp⟩
  | @digits ds h =>
    refine ⟨some (ds.map fun c => c.toNat - '0'.toNat), fun rest hd _ => ?_⟩
    rw [List.cons_append, readFraction, h.takeDigits1?_append hd]
    rfl

theorem IsDigits.readExponentDigits_append {ds : List Char} (h : IsDigits ds) (negative : Bool) :
    ∃ exponent, ∀ rest, EndsDigits rest →
      readExponentDigits negative (ds ++ rest) = some (exponent, rest) := by
  let n : Nat := (ds.map fun c => c.toNat - '0'.toNat).foldl (fun n d => n * 10 + d) 0
  refine ⟨some (if negative then -(n : Int) else n), fun rest hr => ?_⟩
  simp only [readExponentDigits, h.takeDigits1?_append hr, Option.bind_eq_bind, Option.bind_some,
    Option.pure_def, n]

theorem IsExponent.readExponent_append {t : List Char} (h : IsExponent t) :
    ∃ exponent, ∀ rest, EndsValue rest → readExponent (t ++ rest) = some (exponent, rest) := by
  cases h with
  | absent => exact ⟨none, fun rest hr => readExponent_of_endsValue hr⟩
  | @digits sign ds hsign h =>
    rcases hsign with rfl | rfl
    · obtain ⟨e, he⟩ := h.readExponentDigits_append false
      exact ⟨e, fun rest hr => he rest hr.endsDigits⟩
    · obtain ⟨e, he⟩ := h.readExponentDigits_append true
      exact ⟨e, fun rest hr => he rest hr.endsDigits⟩

theorem IsExponent.endsDigits {t rest : List Char} (h : IsExponent t) (hr : EndsValue rest) :
    EndsDigits (t ++ rest) := by
  cases h with
  | absent => exact hr.endsDigits
  | digits _ _ =>
    intro c hc
    cases hc
    rfl

theorem IsExponent.ne_point {t rest : List Char} (h : IsExponent t) (hr : EndsValue rest) :
    ∀ c ∈ (t ++ rest).head?, c ≠ '.' := by
  cases h with
  | absent => exact hr.ne_point
  | digits _ _ =>
    intro c hc
    cases hc
    decide

theorem IsFraction.endsDigits {t rest : List Char} (h : IsFraction t) (hr : EndsDigits rest) :
    EndsDigits (t ++ rest) := by
  cases h with
  | absent => exact hr
  | digits _ =>
    intro c hc
    cases hc
    rfl

theorem IsDigits.append_ne_minus {ds : List Char} (h : IsDigits ds) (rest cs : List Char) :
    ds ++ rest ≠ '-' :: cs := by
  intro hcs
  cases ds with
  | nil => exact h.ne_nil rfl
  | cons c ds =>
    have hdigit := h.digit c List.mem_cons_self
    rw [(List.cons.inj hcs).1] at hdigit
    cases hdigit

theorem readNumeral_signed {sign whole : List Char} (hs : sign = [] ∨ sign = ['-'])
    (hw : IsDigits whole) (rest : List Char) :
    readNumeral (sign ++ (whole ++ rest)) = do
      let (whole, cs) ← readWhole (whole ++ rest)
      let (fraction, cs) ← readFraction cs
      let (exponent, cs) ← readExponent cs
      return (⟨!sign.isEmpty, whole, fraction, exponent⟩, cs) := by
  rcases hs with rfl | rfl
  · unfold readNumeral
    split
    next hcs =>
      split at hcs
      next cs hminus => exact absurd hminus (hw.append_ne_minus rest cs)
      · cases hcs
        rfl
  · rfl

theorem IsNumeral.readNumeral_append {t : List Char} (h : IsNumeral t) :
    ∃ n, ∀ rest, EndsValue rest → readNumeral (t ++ rest) = some (n, rest) := by
  cases h with
  | @mk sign _ hsign hunsigned =>
    obtain @⟨whole, fraction, exponent, hwhole, hfraction, hexponent⟩ := hunsigned
    obtain ⟨e, he⟩ := hexponent.readExponent_append
    obtain ⟨f, hf⟩ := hfraction.readFraction_append
    refine ⟨⟨!sign.isEmpty, whole.map fun c => c.toNat - '0'.toNat, f, e⟩, fun rest hr => ?_⟩
    have hdigits := hexponent.endsDigits hr
    have hw := hwhole.readWhole_append (hfraction.endsDigits hdigits)
    have hn := readNumeral_signed hsign hwhole.toIsDigits (fraction ++ (exponent ++ rest))
    simp only [List.append_assoc, hn, hw, hf _ hdigits (hexponent.ne_point hr), he _ hr,
      Option.bind_eq_bind, Option.bind_some, Option.pure_def]

theorem IsNumeral.begins {t : List Char} (h : IsNumeral t) :
    ∃ c cs, t = c :: cs ∧ (c.isDigit = true ∨ c = '-') := by
  cases h with
  | @mk sign _ hsign hunsigned =>
    obtain @⟨whole, fraction, exponent, hwhole, -, -⟩ := hunsigned
    rcases hsign with rfl | rfl
    · cases whole with
      | nil => exact absurd rfl hwhole.ne_nil
      | cons c ds => exact ⟨c, _, rfl, .inl (hwhole.digit c List.mem_cons_self)⟩
    · exact ⟨'-', _, rfl, .inr rfl⟩

/-- The values of the digits of a number, the first of them first. -/
def digitValues (n : Nat) : List Nat := (Nat.toDigits 10 n).map fun c => c.toNat - '0'.toNat

theorem digitValues_single {d : Nat} (h : d < 10) : digitValues d = [d] := by
  rw [digitValues, Nat.toDigits_of_lt_base h, List.map_singleton]
  exact congrArg (fun v => [v]) (Nat.toNat_digitChar_sub_48_of_lt_ten h)

theorem digitValues_digit {m d : Nat} (hm : 0 < m) (hd : d < 10) :
    digitValues (10 * m + d) = digitValues m ++ [d] := by
  rw [digitValues, ← Nat.toDigits_append_toDigits (by decide) hm hd, List.map_append,
    ← digitValues, ← digitValues, digitValues_single hd]

theorem digitValues_head {n : Nat} (hn : 0 < n) : ∃ d ds, digitValues n = (d + 1) :: ds := by
  induction n using Nat.base_induction 10 (by decide) with
  | single m hm =>
    obtain ⟨d, rfl⟩ := Nat.exists_eq_add_one_of_ne_zero (Nat.ne_zero_of_lt hn)
    exact ⟨d, [], digitValues_single hm⟩
  | digit m k hk hm ih =>
    obtain ⟨d, ds, hds⟩ := ih hm
    exact ⟨d, ds ++ [k], by rw [digitValues_digit hm hk, hds, List.cons_append]⟩

theorem appendDigits_append_singleton {s m d : Nat} {ds : List Nat}
    (h : appendDigits s ds = (m, [])) (hmax : m * 10 + d ≤ maxSignificand) :
    appendDigits s (ds ++ [d]) = (m * 10 + d, []) := by
  induction ds generalizing s with
  | nil =>
    cases h
    simp [appendDigits, hmax]
  | cons e ds ih =>
    simp only [appendDigits] at h
    split at h
    next he => simpa [appendDigits, he] using ih h
    · cases h

theorem appendDigits_digitValues {n : Nat} (h : n ≤ maxSignificand) :
    appendDigits 0 (digitValues n) = (n, []) := by
  induction n using Nat.base_induction 10 (by decide) with
  | single m hm => simp [digitValues_single hm, appendDigits, h]
  | digit m k hk hm ih =>
    rw [digitValues_digit hm hk, Nat.mul_comm 10 m]
    exact appendDigits_append_singleton (ih (by omega)) (by omega)

theorem isDigits_toDigits (n : Nat) : IsDigits (Nat.toDigits 10 n) where
  ne_nil := Nat.toDigits_ne_nil
  digit c hc := Nat.isDigit_of_mem_toDigits (by decide) (by decide) hc

theorem head?_toDigits {n : Nat} (hn : 0 < n) : (Nat.toDigits 10 n).head? ≠ some '0' := by
  obtain ⟨d, ds, hds⟩ := digitValues_head hn
  intro h
  have hhead := congrArg List.head? hds
  rw [digitValues, List.head?_map, h] at hhead
  cases hhead

theorem IsDigits.isWhole {ds : List Char} (h : IsDigits ds) (h0 : ds.head? ≠ some '0') :
    IsWhole ds where
  toIsDigits := h
  zero hzero := absurd hzero h0

theorem isWhole_toDigits (n : Nat) : IsWhole (Nat.toDigits 10 n) := by
  rcases Nat.eq_zero_or_pos n with rfl | hn
  · exact ⟨isDigits_toDigits 0, fun _ => rfl⟩
  · exact (isDigits_toDigits n).isWhole (head?_toDigits hn)

theorem isUnsigned_toDigits (n : Nat) : IsUnsigned (Nat.toDigits 10 n) := by
  simpa using IsUnsigned.mk (isWhole_toDigits n) .absent .absent

theorem readNumber_nat (inRange : Bool) {n : Nat} (hn : n ≤ maxSignificand) {rest : List Char}
    (h : EndsValue rest) :
    readNumber inRange (Nat.toDigits 10 n ++ rest) = some (.nat n, rest) := by
  have hwhole : readWhole (Nat.toDigits 10 n ++ rest) = some (digitValues n, rest) :=
    (isWhole_toDigits n).readWhole_append h.endsDigits
  have hfraction := readFraction_of_ne h.ne_point
  have hexponent := readExponent_of_endsValue h
  have hnumeral : readNumeral (Nat.toDigits 10 n ++ rest) =
      some (⟨false, digitValues n, none, none⟩, rest) := by
    have hsigned := readNumeral_signed (.inl rfl) (isDigits_toDigits n) rest
    simpa [hwhole, hfraction, hexponent] using hsigned
  have hvalue : (Numeral.mk false (digitValues n) none none).value? = some (.integer n) := by
    have hds := appendDigits_digitValues hn
    simp [Numeral.value?, hds]
  cases inRange <;> simp [readNumber, hnumeral, hvalue, Value.nat]

/-- The power `10 ^ k` is at most `n / d`. -/
def PowerAtMost (n d : Nat) (k : Int) : Prop :=
  d * Nat.pow 10 k.toNat ≤ n * Nat.pow 10 (-k).toNat

theorem powerAtMost_ofNat {n d k : Nat} : PowerAtMost n d k ↔ d * Nat.pow 10 k ≤ n := by
  have hk : (-(k : Int)).toNat = 0 := by omega
  rw [PowerAtMost, hk, Int.toNat_natCast]
  exact Iff.of_eq (congrArg _ (Nat.mul_one n))

theorem powerAtMost_neg {n d k : Nat} : PowerAtMost n d (-k) ↔ d ≤ n * Nat.pow 10 k := by
  have hk : (-(k : Int)).toNat = 0 := by omega
  rw [PowerAtMost, hk, Int.neg_neg, Int.toNat_natCast]
  exact Iff.of_eq (congrArg (· ≤ _) (Nat.mul_one d))

theorem PowerAtMost.pred {n d : Nat} {k : Int} (h : PowerAtMost n d k) :
    PowerAtMost n d (k - 1) := by
  have hsucc (j : Nat) : Nat.pow 10 (j + 1) = Nat.pow 10 j * 10 := rfl
  rcases Int.lt_or_le 0 k with hk | hk
  · obtain ⟨j, rfl⟩ : ∃ j : Nat, k = ((j + 1 : Nat) : Int) := ⟨(k - 1).toNat, by omega⟩
    have hj : ((j + 1 : Nat) : Int) - 1 = (j : Nat) := by omega
    rw [powerAtMost_ofNat, hsucc, ← Nat.mul_assoc] at h
    rw [hj, powerAtMost_ofNat]
    omega
  · obtain ⟨j, rfl⟩ : ∃ j : Nat, k = -(j : Int) := ⟨(-k).toNat, by omega⟩
    have hj : -(j : Int) - 1 = -((j + 1 : Nat) : Int) := by omega
    rw [powerAtMost_neg] at h
    rw [hj, powerAtMost_neg, hsucc, ← Nat.mul_assoc]
    omega

theorem pow_le_of_length_toDigits {n : Nat} (hn : 0 < n) :
    Nat.pow 10 ((Nat.toDigits 10 n).length - 1) ≤ n := by
  rcases Nat.eq_zero_or_pos ((Nat.toDigits 10 n).length - 1) with h0 | hpos
  · rw [h0]
    exact hn
  · refine Nat.not_lt.1 fun hlt => ?_
    have hle := (Nat.length_toDigits_le_iff (by decide) hpos).2 hlt
    omega

theorem lt_pow_length_toDigits (n : Nat) : n < Nat.pow 10 (Nat.toDigits 10 n).length := by
  have hpos : 0 < (Nat.toDigits 10 n).length := Nat.length_toDigits_pos
  exact (Nat.length_toDigits_le_iff (by decide) hpos).1 (Nat.le_refl _)

section Digits

variable {b : Binary64}

theorem toRatio_pos (hb : b.mantissa ≠ 0) : 0 < b.toRatio.1 ∧ 0 < b.toRatio.2 :=
  ⟨Nat.mul_pos (Nat.pos_of_ne_zero hb) (Nat.pow_pos (by decide)), Nat.pow_pos (by decide)⟩

theorem powerAtMost_leadingPower (hb : b.mantissa ≠ 0) :
    PowerAtMost b.toRatio.1 b.toRatio.2 b.leadingPower := by
  have ⟨hn, hd⟩ := toRatio_pos hb
  simp only [Binary64.leadingPower]
  generalize b.toRatio.1 = n at hn ⊢
  generalize b.toRatio.2 = d at hd ⊢
  split
  next hle =>
    have hpos : 0 < (Nat.toDigits 10 (n / d)).length := Nat.length_toDigits_pos
    have hpow := pow_le_of_length_toDigits (Nat.div_pos hle hd)
    have hk : ((Nat.toDigits 10 (n / d)).length : Int) - 1 =
        ((Nat.toDigits 10 (n / d)).length - 1 : Nat) := by omega
    rw [hk, powerAtMost_ofNat, Nat.mul_comm]
    exact (Nat.le_div_iff_mul_le hd).1 hpow
  next =>
    split
    next hle =>
      have hpos : 0 < (Nat.toDigits 10 (d / n)).length := Nat.length_toDigits_pos
      have hk : ((Nat.toDigits 10 (d / n)).length : Int) - 1 =
          ((Nat.toDigits 10 (d / n)).length - 1 : Nat) := by omega
      rw [hk, powerAtMost_neg]
      exact hle
    next =>
      have hlt := (Nat.div_lt_iff_lt_mul hn).1 (lt_pow_length_toDigits (d / n))
      rw [powerAtMost_neg, Nat.mul_comm]
      exact Nat.le_of_lt hlt

theorem neighbours_pos {k : Int} (hb : b.mantissa ≠ 0)
    (hk : PowerAtMost b.toRatio.1 b.toRatio.2 k) : ∀ d ∈ b.neighbours k, 0 < d.digits := by
  have hbelow := Nat.div_pos hk (Nat.mul_pos (toRatio_pos hb).2 (Nat.pow_pos (by decide)))
  intro d hd
  simp only [Binary64.neighbours] at hd
  split at hd
  all_goals
    simp only [List.mem_cons, List.not_mem_nil, or_false] at hd
    rcases hd with rfl | rfl
  · exact hbelow
  · exact Nat.succ_pos _
  · exact Nat.succ_pos _
  · exact hbelow

theorem shortestFrom_pos (hb : b.mantissa ≠ 0) (grids : Nat) {k : Int}
    (hk : PowerAtMost b.toRatio.1 b.toRatio.2 k) : 0 < (b.shortestFrom grids k).digits := by
  -- On the first grid the number lies above the first point that is not zero, and a finer grid has
  -- such points below the coarser one's.
  induction grids generalizing k with
  | zero =>
    have hpos := neighbours_pos hb hk
    rw [Binary64.shortestFrom]
    cases hs : b.neighbours k with
    | nil =>
      simp only [Binary64.neighbours] at hs
      split at hs <;> cases hs
    | cons d ds => exact hpos d (hs ▸ List.mem_cons_self)
  | succ grids ih =>
    rw [Binary64.shortestFrom]
    cases hs : (b.neighbours k).find? b.readsBack with
    | none => exact ih hk.pred
    | some d => exact neighbours_pos hb hk d (List.mem_of_find?_eq_some hs)

theorem normalize_pos (fuel : Nat) {d : Decimal} (h : 0 < d.digits) :
    0 < (d.normalize fuel).digits := by
  induction fuel generalizing d with
  | zero => exact h
  | succ fuel ih =>
    rw [Decimal.normalize]
    split
    next hd => exact ih (show 0 < d.digits / 10 by omega)
    · exact h

end Digits

section Writing

variable {ds : List Char}

theorem IsDigits.append {ts : List Char} (h : IsDigits ds) (ht : ∀ c ∈ ts, c.isDigit = true) :
    IsDigits (ds ++ ts) where
  ne_nil hnil := h.ne_nil (List.append_eq_nil_iff.1 hnil).1
  digit c hc := (List.mem_append.1 hc).elim (h.digit c) (ht c)

theorem IsDigits.take_succ (h : IsDigits ds) (k : Nat) : IsDigits (ds.take (k + 1)) where
  ne_nil hnil := h.ne_nil ((List.take_eq_nil_iff.1 hnil).resolve_left (Nat.succ_ne_zero k))
  digit c hc := h.digit c (List.mem_of_mem_take hc)

theorem isDigit_of_mem_zeros {k : Nat} : ∀ c ∈ List.replicate k '0', c.isDigit = true := by
  intro c hc
  rw [List.eq_of_mem_replicate hc]
  rfl

theorem IsDigits.isUnsigned_writePositional (h : IsDigits ds) (h0 : ds.head? ≠ some '0') (e : Int) :
    IsUnsigned (Number.writePositional ds e) := by
  rw [Number.writePositional]
  split
  next =>
    have hfraction : IsDigits (List.replicate (-e - 1).toNat '0' ++ ds) := by
      refine ⟨fun hnil => h.ne_nil (List.append_eq_nil_iff.1 hnil).2, fun c hc => ?_⟩
      exact (List.mem_append.1 hc).elim (isDigit_of_mem_zeros c) (h.digit c)
    have hunsigned := IsUnsigned.mk (isWhole_toDigits 0) (.digits hfraction) .absent
    simpa using hunsigned
  next =>
    generalize e.toNat = k
    have hwhole : IsWhole (ds.take (k + 1) ++ List.replicate (k + 1 - ds.length) '0') := by
      refine ((h.take_succ k).append isDigit_of_mem_zeros).isWhole ?_
      rwa [List.head?_append, List.head?_take, if_neg (Nat.succ_ne_zero k),
        Option.or_of_isSome (List.isSome_head?.2 h.ne_nil)]
    have hfraction : IsDigits
        (if (ds.drop (k + 1)).isEmpty then ['0'] else ds.drop (k + 1)) := by
      split
      next => exact isDigits_toDigits 0
      next hne =>
        refine ⟨fun hnil => hne (by rw [hnil]; rfl), fun c hc => ?_⟩
        exact h.digit c (List.mem_of_mem_drop hc)
    have hunsigned := IsUnsigned.mk hwhole (.digits hfraction) .absent
    simpa using hunsigned

theorem IsDigits.isUnsigned_writeScientific (h : IsDigits ds) (h0 : ds.head? ≠ some '0') (e : Int) :
    IsUnsigned (Number.writeScientific ds e) := by
  have hwhole : IsWhole (ds.take 1) := (h.take_succ 0).isWhole (by rwa [List.head?_take])
  have hfraction : IsFraction (if (ds.drop 1).isEmpty then [] else '.' :: ds.drop 1) := by
    split
    next => exact .absent
    next hne =>
      refine .digits ⟨fun hnil => hne (by rw [hnil]; rfl), fun c hc => ?_⟩
      exact h.digit c (List.mem_of_mem_drop hc)
  have hsign : (if e < 0 then '-' else '+') = '+' ∨ (if e < 0 then '-' else '+') = '-' := by
    split
    · exact .inr rfl
    · exact .inl rfl
  have hunsigned :=
    IsUnsigned.mk hwhole hfraction (.digits hsign (isDigits_toDigits e.natAbs))
  simpa [Number.writeScientific] using hunsigned

end Writing

namespace Number

theorem isUnsigned_writeMagnitude (b : Binary64) : IsUnsigned (writeMagnitude b) := by
  rw [writeMagnitude]
  split
  next => exact .mk (isWhole_toDigits 0) (.digits (isDigits_toDigits 0)) .absent
  next hb =>
    have hpos : 0 < (b.shortest.normalize 20).digits :=
      normalize_pos 20 (shortestFrom_pos hb 17 (powerAtMost_leadingPower hb))
    have hdigits := isDigits_toDigits (b.shortest.normalize 20).digits
    simp only
    split
    next => exact hdigits.isUnsigned_writePositional (head?_toDigits hpos) _
    next => exact hdigits.isUnsigned_writeScientific (head?_toDigits hpos) _

theorem isNumeral_write (n : Number) : IsNumeral n.write := by
  cases n with
  | integer n =>
    rw [write]
    split
    next => exact .mk (.inr rfl) (isUnsigned_toDigits n.natAbs)
    next => exact .mk (.inl rfl) (isUnsigned_toDigits n.natAbs)
  | float negative b =>
    refine .mk ?_ (isUnsigned_writeMagnitude b)
    cases negative
    · exact .inl rfl
    · exact .inr rfl

end Number

end MessageKeys.Json

import Mathlib.Data.Nat.Digits.Lemmas
import MessageKeys.Syntax.Literal

namespace MessageKeys

open Text (CodeUnits hexDigit?)

namespace Syntax

/-- Read from here, these characters make up an escape that stands for these units. -/
inductive Escape.Reads : Escape → List Char → CodeUnits → Prop where
  | last {e : Escape} {c : Char} {us : CodeUnits} : e.step c = .units us → Reads e [c] us
  | more {e e' : Escape} {c : Char} {cs : List Char} {us : CodeUnits} :
    e.step c = .more e' → Reads e' cs us → Reads e (c :: cs) us

theorem hexDigit?_digitChar : ∀ d < 16, hexDigit? (Nat.digitChar d) = some d := by decide

theorem digitChar_ne_brace : ∀ d < 16, Nat.digitChar d ≠ '\x7d' := by decide

theorem step_braced_digit {value digits d : Nat} (hd : d < 16) (hle : value * 16 + d ≤ 0x10FFFF) :
    (Escape.braced value digits).step (Nat.digitChar d) =
      .more (.braced (value * 16 + d) (digits + 1)) := by
  rw [Escape.step, hexDigit?_digitChar d hd]
  · exact if_neg (Nat.not_lt.2 hle)
  · exact digitChar_ne_brace d hd

theorem reads_braced_digits {n : Nat} (hn : n ≤ 0x10FFFF) {rest : List Char} {us : CodeUnits}
    (h : ∀ digits, (Escape.braced n (digits + 1)).Reads rest us) :
    (Escape.braced 0 0).Reads (Nat.toDigits 16 n ++ rest) us := by
  induction n using Nat.strong_induction_on generalizing rest with
  | _ n ih =>
    by_cases hlt : n < 16
    · rw [Nat.toDigits_of_lt_base hlt]
      refine .more (step_braced_digit hlt (by omega)) ?_
      rw [Nat.zero_mul, Nat.zero_add]
      exact h 0
    · have hmod : n % 16 < 16 := Nat.mod_lt _ (by decide)
      rw [Nat.toDigits_of_base_le (by decide) (Nat.le_of_not_lt hlt), List.append_assoc]
      refine ih (n / 16) (by omega) (by omega) fun digits => ?_
      refine .more (step_braced_digit hmod (by omega)) ?_
      rw [Nat.div_add_mod' n 16]
      exact h (digits + 1)

def braced (c : Char) : List Char :=
  'u' :: '\x7b' :: Nat.toDigits 16 c.toNat ++ ['\x7d']

theorem reads_braced (c : Char) : Escape.begun.Reads (braced c) (CodeUnits.ofCodePoint c.toNat) := by
  refine .more rfl (.more rfl ?_)
  refine reads_braced_digits ?_ fun digits => .last ?_
  · rcases c.valid with h | ⟨-, h⟩
    · exact Nat.le_trans (Nat.le_of_lt h) (by decide)
    · exact Nat.le_of_lt_succ h
  · simp [Escape.step]

def escapeText (special : Char → Bool) (cs : List Char) : List Char :=
  cs.flatMap fun c => if special c then '\\' :: braced c else [c]

theorem scanString_reads (quote : Char) (start opened : Nat) {e : Escape} {cs : List Char}
    {us : CodeUnits} (h : e.Reads cs us) (units : CodeUnits) (faults : List Fault) (offset : Nat)
    (rest : List Char) :
    ∃ offset', scanString quote start (.escape opened e) units faults offset (cs ++ rest) =
      scanString quote start .plain (us.reverse ++ units) faults offset' rest := by
  induction h generalizing offset with
  | @last e c us hstep =>
    refine ⟨offset + c.utf8Size, ?_⟩
    rw [List.singleton_append, scanString]
    simp only [hstep]
  | @more e e' c cs us hstep _ ih =>
    obtain ⟨offset', hrest⟩ := ih (offset + c.utf8Size)
    refine ⟨offset', ?_⟩
    rw [List.cons_append, scanString]
    simp only [hstep]
    exact hrest

/-- What cannot stand in a string as it is: its quote, backslashes and line breaks. -/
def EndsString (quote c : Char) : Prop := c = quote ∨ c = '\\' ∨ c = '\n' ∨ c = '\r'

section Plain

variable {quote : Char} (start : Nat) (units : CodeUnits) (faults : List Fault) (offset : Nat)
  (cs : List Char)

theorem scanString_backslash (hquote : quote ≠ '\\') :
    scanString quote start .plain units faults offset ('\\' :: cs) =
      scanString quote start (.escape offset .begun) units faults (offset + 1) cs := by
  rw [scanString]
  simp only [hquote.symm, if_false]
  rfl

theorem scanString_plain {c : Char} (hc : ¬ EndsString quote c) :
    scanString quote start .plain units faults offset (c :: cs) =
      scanString quote start .plain ((CodeUnits.ofCodePoint c.toNat).reverse ++ units) faults
        (offset + c.utf8Size) cs := by
  simp only [EndsString, not_or] at hc
  rw [scanString]
  simp only [hc, or_self, if_false]

end Plain

theorem scanString_escapeText {quote : Char} (hquote : quote ≠ '\\') {special : Char → Bool}
    (hspecial : ∀ c, EndsString quote c → special c = true) (start : Nat) (cs : List Char)
    (units : CodeUnits) (faults : List Fault) (offset : Nat) (rest : List Char) :
    ∃ stop, scanString quote start .plain units faults offset
        (escapeText special cs ++ quote :: rest) =
      ⟨units.reverse ++ CodeUnits.ofChars cs, ⟨stop, rest⟩, faults, none⟩ := by
  induction cs generalizing units offset with
  | nil =>
    refine ⟨offset + quote.utf8Size, ?_⟩
    rw [escapeText, List.flatMap_nil, List.nil_append, scanString]
    simp [CodeUnits.ofChars]
  | cons c cs ih =>
    have hunits : ∀ us : CodeUnits, (us.reverse ++ units).reverse ++ CodeUnits.ofChars cs =
        units.reverse ++ (us ++ CodeUnits.ofChars cs) := by
      intro us
      rw [List.reverse_append, List.reverse_reverse, List.append_assoc]
    rw [escapeText, List.flatMap_cons, ← escapeText, List.append_assoc]
    by_cases hc : special c = true
    · obtain ⟨offset', hescape⟩ := scanString_reads quote start offset (reads_braced c) units faults
        (offset + 1) (escapeText special cs ++ quote :: rest)
      obtain ⟨stop, hrest⟩ := ih ((CodeUnits.ofCodePoint c.toNat).reverse ++ units) offset'
      refine ⟨stop, ?_⟩
      rw [if_pos hc, List.cons_append, scanString_backslash _ _ _ _ _ hquote, hescape, hrest, hunits]
      rfl
    · have hplain : ¬ EndsString quote c := fun h => hc (hspecial c h)
      obtain ⟨stop, hrest⟩ := ih ((CodeUnits.ofCodePoint c.toNat).reverse ++ units)
        (offset + c.utf8Size)
      refine ⟨stop, ?_⟩
      rw [if_neg hc, List.singleton_append, scanString_plain _ _ _ _ _ hplain, hrest, hunits]
      rfl

theorem scanTemplate?_reads (opened : Nat) {e : Escape} {cs : List Char} {us : CodeUnits}
    (h : e.Reads cs us) (t : TemplateText) (offset : Nat) (rest : List Char) :
    ∃ raw offset', scanTemplate? (.escape opened e) t offset (cs ++ rest) =
      scanTemplate? .plain { t with cooked := us.reverse ++ t.cooked, raw } offset' rest := by
  induction h generalizing t offset with
  | @last e c us hstep =>
    refine ⟨(if c = '\r' then '\n' else c) :: t.raw, offset + c.utf8Size, ?_⟩
    rw [List.singleton_append, scanTemplate?]
    simp only [hstep]
    rfl
  | @more e e' c cs us hstep _ ih =>
    obtain ⟨raw, offset', hrest⟩ := ih { t with raw := (if c = '\r' then '\n' else c) :: t.raw }
      (offset + c.utf8Size)
    refine ⟨raw, offset', ?_⟩
    rw [List.cons_append, scanTemplate?]
    simp only [hstep]
    exact hrest

/-- What cannot stand in a template as it is. -/
def EndsTemplate (c : Char) : Prop := c = '`' ∨ c = '$' ∨ c = '\\' ∨ c = '\r'

theorem scanTemplate?_backslash (t : TemplateText) (offset : Nat) (cs : List Char) :
    scanTemplate? .plain t offset ('\\' :: cs) =
      scanTemplate? (.escape offset .begun) { t with raw := '\\' :: t.raw } (offset + 1) cs := by
  rw [scanTemplate?]
  rfl

theorem scanTemplate?_plain (t : TemplateText) (offset : Nat) (cs : List Char) {c : Char}
    (hc : ¬ EndsTemplate c) :
    scanTemplate? .plain t offset (c :: cs) =
      scanTemplate? .plain (t.push (CodeUnits.ofCodePoint c.toNat) c) (offset + c.utf8Size) cs := by
  simp only [EndsTemplate, not_or] at hc
  rw [scanTemplate?]
  simp only [hc, if_false]

theorem scanTemplate?_escapeText {special : Char → Bool}
    (hspecial : ∀ c, EndsTemplate c → special c = true) (cs : List Char) (t : TemplateText)
    (ht : t.malformed = none) (offset : Nat) (rest : List Char) :
    ∃ raw stop, scanTemplate? .plain t offset (escapeText special cs ++ '`' :: rest) =
      some ⟨⟨some (t.cooked.reverse ++ CodeUnits.ofChars cs), raw⟩, true, none, ⟨stop, rest⟩⟩ := by
  induction cs generalizing t offset with
  | nil =>
    refine ⟨String.ofList t.raw.reverse, offset + 1, ?_⟩
    rw [escapeText, List.flatMap_nil, List.nil_append, scanTemplate?]
    simp only [TemplateText.finish, ht, CodeUnits.ofChars, List.flatMap_nil, List.append_nil]
    rfl
  | cons c cs ih =>
    have hunits : ∀ us : CodeUnits, (us.reverse ++ t.cooked).reverse ++ CodeUnits.ofChars cs =
        t.cooked.reverse ++ (us ++ CodeUnits.ofChars cs) := by
      intro us
      rw [List.reverse_append, List.reverse_reverse, List.append_assoc]
    rw [escapeText, List.flatMap_cons, ← escapeText, List.append_assoc]
    by_cases hc : special c = true
    · obtain ⟨raw, offset', hescape⟩ := scanTemplate?_reads offset (reads_braced c)
        { t with raw := '\\' :: t.raw } (offset + 1) (escapeText special cs ++ '`' :: rest)
      obtain ⟨raw', stop, hrest⟩ := ih
        ⟨(CodeUnits.ofCodePoint c.toNat).reverse ++ t.cooked, raw, t.malformed⟩ ht offset'
      refine ⟨raw', stop, ?_⟩
      rw [if_pos hc, List.cons_append, scanTemplate?_backslash, hescape, hrest, hunits]
      rfl
    · have hplain : ¬ EndsTemplate c := fun h => hc (hspecial c h)
      obtain ⟨raw, stop, hrest⟩ := ih (t.push (CodeUnits.ofCodePoint c.toNat) c) ht
        (offset + c.utf8Size)
      refine ⟨raw, stop, ?_⟩
      rw [if_neg hc, List.singleton_append, scanTemplate?_plain _ _ _ hplain, hrest,
        TemplateText.push, hunits]
      rfl

end Syntax

namespace Text.CodeUnits

theorem toNat_valid (c : Char) : c.toNat < 0xD800 ∨ 0xDFFF < c.toNat ∧ c.toNat < 0x110000 :=
  c.valid

theorem toNat_toUInt16 {n : Nat} (h : n < 0x10000) : n.toUInt16.toNat = n :=
  Nat.mod_eq_of_lt h

theorem toChars?_cons {u : UInt16} (hhigh : isHigh u = false) (hlow : isLow u = false)
    (us : CodeUnits) : toChars? (u :: us) = (toChars? us).map (Char.ofNat u.toNat :: ·) := by
  cases us with
  | nil => simp [toChars?, hhigh, hlow]
  | cons v vs => simp [toChars?, hhigh, hlow]

theorem toChars?_ofCodePoint_append (c : Char) (us : CodeUnits) :
    toChars? (ofCodePoint c.toNat ++ us) = (toChars? us).map (c :: ·) := by
  have hvalid := toNat_valid c
  rw [ofCodePoint]
  split
  next hlt =>
    have hunit := toNat_toUInt16 hlt
    rw [List.singleton_append, toChars?_cons, hunit, Char.ofNat_toNat]
    · rw [isHigh, hunit, Bool.and_eq_false_iff, decide_eq_false_iff_not, decide_eq_false_iff_not]
      omega
    · rw [isLow, hunit, Bool.and_eq_false_iff, decide_eq_false_iff_not, decide_eq_false_iff_not]
      omega
  next hge =>
    set n := c.toNat - 0x10000
    have hhigh : (0xD800 + n / 0x400).toUInt16.toNat = 0xD800 + n / 0x400 :=
      toNat_toUInt16 (by omega)
    have hlow : (0xDC00 + n % 0x400).toUInt16.toNat = 0xDC00 + n % 0x400 :=
      toNat_toUInt16 (by omega)
    have hisHigh : isHigh (0xD800 + n / 0x400).toUInt16 = true := by
      rw [isHigh, hhigh, Bool.and_eq_true, decide_eq_true_iff, decide_eq_true_iff]
      omega
    have hisLow : isLow (0xDC00 + n % 0x400).toUInt16 = true := by
      rw [isLow, hlow, Bool.and_eq_true, decide_eq_true_iff, decide_eq_true_iff]
      omega
    have hjoin : joinPair (0xD800 + n / 0x400).toUInt16 (0xDC00 + n % 0x400).toUInt16 =
        c.toNat := by
      unfold joinPair
      rw [hhigh, hlow]
      omega
    rw [List.cons_append, List.singleton_append, toChars?, if_pos hisHigh, if_pos hisLow, hjoin,
      Char.ofNat_toNat]

theorem toChars?_ofChars (cs : List Char) : toChars? (ofChars cs) = some cs := by
  induction cs with
  | nil => rfl
  | cons c cs ih =>
    have hcons : ofChars (c :: cs) = ofCodePoint c.toNat ++ ofChars cs := List.flatMap_cons
    rw [hcons, toChars?_ofCodePoint_append, ih]
    rfl

theorem toString?_ofString (s : String) : toString? (ofString s) = some s := by
  rw [toString?, ofString, toChars?_ofChars, Option.map_some, String.ofList_toList]

end Text.CodeUnits

end MessageKeys

import Mathlib.Data.Nat.Digits.Lemmas
import MessageKeys.Syntax.Scan

namespace MessageKeys

namespace Text

/-- What stands for a character between `&` and `;`. -/
structure RefersTo (name : List Char) (c : Char) : Prop where
  noSemicolon : ';' ∉ name
  short : name.length < referenceWindow
  referenced : referenced? name = some c

theorem reference?_append {name : List Char} {c : Char} (h : RefersTo name c) (rest : List Char) :
    reference? (name ++ ';' :: rest) = some (c, name.length + 1) := by
  have hshort := h.short
  have hwindow : (name ++ ';' :: rest).take referenceWindow =
      name ++ ';' :: rest.take (referenceWindow - name.length - 1) := by
    rw [List.take_append, List.take_of_length_le (Nat.le_of_lt hshort)]
    obtain ⟨k, hk⟩ : ∃ k, referenceWindow - name.length = k + 1 :=
      ⟨referenceWindow - name.length - 1, by omega⟩
    rw [hk, List.take_succ_cons, Nat.add_sub_cancel]
  have hname : (name ++ ';' :: rest.take (referenceWindow - name.length - 1)).takeWhile (· ≠ ';') =
      name := by
    rw [List.takeWhile_append_of_pos]
    · simp
    · intro d hd
      simpa using fun heq : d = ';' => h.noSemicolon (heq ▸ hd)
  rw [reference?, hwindow, hname, h.referenced, if_pos (by simp)]
  rfl

theorem decodeFrom_length (skipped rest : List Char) :
    decodeFrom skipped.length (skipped ++ rest) = decodeReferences rest := by
  induction skipped with
  | nil => rfl
  | cons c cs ih => exact ih

theorem decodeReferences_reference {name : List Char} {c : Char} (h : RefersTo name c)
    (rest : List Char) :
    decodeReferences ('&' :: (name ++ ';' :: rest)) = c :: decodeReferences rest := by
  have hskip : decodeFrom (name.length + 1) (name ++ ';' :: rest) = decodeReferences rest := by
    have hlength := decodeFrom_length (name ++ [';']) rest
    rwa [List.length_append, List.append_assoc] at hlength
  rw [decodeReferences, decodeFrom, if_pos rfl, reference?_append h]
  dsimp only
  rw [hskip]

theorem decodeReferences_plain {c : Char} (hc : c ≠ '&') (rest : List Char) :
    decodeReferences (c :: rest) = c :: decodeReferences rest := by
  rw [decodeReferences, decodeFrom, if_neg hc, decodeReferences]

def numeral (c : Char) : List Char := '#' :: Nat.toDigits 10 c.toNat

theorem digitsValue?_append_singleton {cs : List Char} {n d : Nat} {c : Char}
    (h : digitsValue? 10 decimalDigit? cs = some n) (hc : decimalDigit? c = some d) :
    digitsValue? 10 decimalDigit? (cs ++ [c]) = some (n * 10 + d) := by
  rw [digitsValue?, List.foldl_append, ← digitsValue?, h]
  simp [hc]

theorem decimalDigit?_digitChar : ∀ d < 10, decimalDigit? (Nat.digitChar d) = some d := by decide

theorem digitsValue?_toDigits (n : Nat) :
    digitsValue? 10 decimalDigit? (Nat.toDigits 10 n) = some n := by
  induction n using Nat.strong_induction_on with
  | _ n ih =>
    by_cases hlt : n < 10
    · rw [Nat.toDigits_of_lt_base hlt]
      simp [digitsValue?, decimalDigit?_digitChar n hlt]
    · have hmod : n % 10 < 10 := Nat.mod_lt _ (by decide)
      rw [Nat.toDigits_of_base_le (by decide) (Nat.le_of_not_lt hlt),
        digitsValue?_append_singleton (ih (n / 10) (by omega)) (decimalDigit?_digitChar _ hmod),
        Nat.div_add_mod' n 10]

theorem charOfNat?_toNat (c : Char) : charOfNat? c.toNat = some c := by
  have hvalid : c.toNat.isValidChar := c.valid
  rw [charOfNat?, if_pos hvalid, Char.ofNat_toNat]

theorem notMem_numeral {x : Char} (hhash : x ≠ '#') (hdigit : x.isDigit = false) (c : Char) :
    x ∉ numeral c := by
  rw [numeral, List.mem_cons, not_or]
  refine ⟨hhash, fun hmem => ?_⟩
  rw [Nat.isDigit_of_mem_toDigits (by decide) (by decide) hmem] at hdigit
  cases hdigit

theorem refersTo_numeral (c : Char) : RefersTo (numeral c) c where
  noSemicolon := notMem_numeral (by decide) (by decide) c
  short := by
    have hvalid : c.toNat < 10 ^ 7 := by
      rcases c.valid with h | ⟨-, h⟩
      · exact Nat.lt_trans h (by decide)
      · exact Nat.lt_trans h (by decide)
    have hlength := Nat.toDigits_length 10 c.toNat 7 (by decide) hvalid
    rw [numeral, List.length_cons, referenceWindow]
    omega
  referenced := by
    have hx : 'x' ∉ Nat.toDigits 10 c.toNat := by
      intro hmem
      cases Nat.isDigit_of_mem_toDigits (by decide) (by decide) hmem
    have hvalue := digitsValue?_toDigits c.toNat
    have hne : Nat.toDigits 10 c.toNat ≠ [] := Nat.toDigits_ne_nil
    rw [numeral]
    generalize Nat.toDigits 10 c.toNat = ds at hx hvalue hne
    rw [referenced?, hvalue, Option.bind_some, charOfNat?_toNat]
    · rintro rfl
      exact hne rfl
    · rintro rfl
      exact hx List.mem_cons_self
    · rintro ds' rfl
      exact hx List.mem_cons_self

/-- A text in which some characters are written as references, by a name that is given for them. -/
def withReferences (name? : Char → Option (List Char)) (cs : List Char) : List Char :=
  cs.flatMap fun c => (name? c).elim [c] fun name => '&' :: (name ++ [';'])

section References

variable {name? : Char → Option (List Char)}

theorem withReferences_cons_none {c : Char} (h : name? c = none) (cs : List Char) :
    withReferences name? (c :: cs) = c :: withReferences name? cs := by
  rw [withReferences, List.flatMap_cons, h]
  rfl

theorem withReferences_cons_some {c : Char} {name : List Char} (h : name? c = some name)
    (cs : List Char) :
    withReferences name? (c :: cs) = '&' :: (name ++ ';' :: withReferences name? cs) := by
  rw [withReferences, List.flatMap_cons, h, withReferences]
  simp

theorem withReferences_append (cs ds : List Char) :
    withReferences name? (cs ++ ds) = withReferences name? cs ++ withReferences name? ds :=
  List.flatMap_append

theorem withReferences_of_plain {cs : List Char} (h : ∀ c ∈ cs, name? c = none) :
    withReferences name? cs = cs := by
  induction cs with
  | nil => rfl
  | cons c cs ih =>
    rw [List.forall_mem_cons] at h
    rw [withReferences_cons_none h.1, ih h.2]

theorem notMem_withReferences {x : Char} (hx : name? x ≠ none) (hamp : x ≠ '&') (hsemicolon : x ≠ ';')
    (hname : ∀ c name, name? c = some name → x ∉ name) (cs : List Char) :
    x ∉ withReferences name? cs := by
  induction cs with
  | nil => exact List.not_mem_nil
  | cons c cs ih =>
    cases hc : name? c with
    | none =>
      have hne : x ≠ c := by
        rintro rfl
        exact hx hc
      rw [withReferences_cons_none hc]
      simp [hne, ih]
    | some name =>
      rw [withReferences_cons_some hc]
      simp [hamp, hsemicolon, hname c name hc, ih]

theorem decodeReferences_withReferences (hamp : name? '&' ≠ none)
    (hname : ∀ c name, name? c = some name → RefersTo name c) (cs : List Char) :
    decodeReferences (withReferences name? cs) = cs := by
  induction cs with
  | nil => rfl
  | cons c cs ih =>
    cases hc : name? c with
    | none =>
      have hplain : c ≠ '&' := by
        rintro rfl
        exact hamp hc
      rw [withReferences_cons_none hc, decodeReferences_plain hplain, ih]
    | some name =>
      rw [withReferences_cons_some hc, decodeReferences_reference (hname c name hc), ih]

end References

theorem joinBreaks_of_notMem {cs : List Char} (h : '\r' ∉ cs) : joinBreaks cs = cs := by
  induction cs with
  | nil => rfl
  | cons c cs ih =>
    rw [List.mem_cons, not_or] at h
    rw [joinBreaks, ih h.2]
    rintro _ rfl
    exact absurd rfl h.1

end Text

namespace Syntax

theorem scanMarkupString?_append {quote : Char} {text : List Char} (h : quote ∉ text)
    (acc : List Char) (offset : Nat) (rest : List Char) :
    ∃ stop, scanMarkupString? quote acc offset (text ++ quote :: rest) =
      some (acc.reverse ++ text, ⟨stop, rest⟩) := by
  induction text generalizing acc offset with
  | nil => exact ⟨offset + 1, by simp [scanMarkupString?]⟩
  | cons c text ih =>
    rw [List.mem_cons, not_or] at h
    obtain ⟨stop, hstop⟩ := ih h.2 (c :: acc) (offset + c.utf8Size)
    refine ⟨stop, ?_⟩
    rw [List.cons_append, scanMarkupString?, if_neg (Ne.symm h.1), hstop]
    simp

/-- Text goes up to the next tag, without complaint if neither braces nor `>` stand in it. -/
theorem scanMarkupText_append {text : List Char}
    (h : '<' ∉ text ∧ '>' ∉ text ∧ '\x7b' ∉ text ∧ '\x7d' ∉ text) (acc : List Char)
    (faults : List Fault) (offset : Nat) (rest : List Char) :
    ∃ stop, scanMarkupText acc faults offset (text ++ '<' :: rest) =
      (acc.reverse ++ text, faults, ⟨stop, '<' :: rest⟩) := by
  induction text generalizing acc offset with
  | nil => exact ⟨offset, by simp [scanMarkupText]⟩
  | cons c text ih =>
    simp only [List.mem_cons, not_or] at h
    obtain ⟨⟨hless, hl⟩, ⟨hgreater, hg⟩, ⟨hopen, ho⟩, hclose, hc⟩ := h
    obtain ⟨stop, hstop⟩ := ih ⟨hl, hg, ho, hc⟩ (c :: acc) (offset + c.utf8Size)
    refine ⟨stop, ?_⟩
    rw [List.cons_append, scanMarkupText, if_neg (by simp [Ne.symm hless, Ne.symm hopen])]
    simp only [Ne.symm hgreater, Ne.symm hclose, or_self, if_false, hstop]
    simp

end Syntax

end MessageKeys

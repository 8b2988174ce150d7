import MessageKeys.Proofs.EscapedText
import MessageKeys.Proofs.Verdict

namespace MessageKeys

open Syntax (Node Segment)
open Text (Source Span CodeUnits)

namespace Text.CodeUnits

theorem isHigh_iff {u : UInt16} : isHigh u = true ↔ 0xD800 ≤ u.toNat ∧ u.toNat < 0xDC00 := by
  rw [isHigh, Bool.and_eq_true, decide_eq_true_iff, decide_eq_true_iff]

theorem isLow_iff {u : UInt16} : isLow u = true ↔ 0xDC00 ≤ u.toNat ∧ u.toNat < 0xE000 := by
  rw [isLow, Bool.and_eq_true, decide_eq_true_iff, decide_eq_true_iff]

theorem not_isLow_of_isHigh {u : UInt16} (h : isHigh u = true) : ¬isLow u = true := by
  rw [isHigh_iff] at h
  rw [isLow_iff]
  omega

/-- Every high surrogate stands right before a low one, and every low one right after a high
one. -/
structure WellFormed (us : CodeUnits) : Prop where
  high : ∀ (i : Nat) (u : UInt16), us[i]? = some u → isHigh u = true →
    ∃ v, us[i + 1]? = some v ∧ isLow v = true
  low : ∀ (i : Nat) (v : UInt16), us[i]? = some v → isLow v = true →
    ∃ (j : Nat) (u : UInt16), i = j + 1 ∧ us[j]? = some u ∧ isHigh u = true

theorem wellFormed_nil : WellFormed [] where
  high i u h := by simp at h
  low i v h := by simp at h

theorem wellFormed_unit {u : UInt16} (hhigh : ¬isHigh u = true) (hlow : ¬isLow u = true) :
    WellFormed [u] where
  high i w h hw := by
    rw [List.getElem?_singleton] at h
    split at h
    · cases h
      exact absurd hw hhigh
    · cases h
  low i w h hw := by
    rw [List.getElem?_singleton] at h
    split at h
    · cases h
      exact absurd hw hlow
    · cases h

theorem wellFormed_pair {u v : UInt16} (hu : isHigh u = true) (hv : isLow v = true) :
    WellFormed [u, v] where
  high i w h hw := by
    rcases i with _ | _ | i
    · exact ⟨v, rfl, hv⟩
    · cases h
      exact absurd hv (not_isLow_of_isHigh hw)
    · cases h
  low i w h hw := by
    rcases i with _ | _ | i
    · cases h
      exact absurd hw (not_isLow_of_isHigh hu)
    · exact ⟨0, u, rfl, rfl, hu⟩
    · cases h

theorem getElem?_append_length (us vs : CodeUnits) (i : Nat) :
    (us ++ vs)[us.length + i]? = vs[i]? := by
  rw [List.getElem?_append_right (Nat.le_add_right _ _), Nat.add_sub_cancel_left]

theorem WellFormed.of_append {us vs : CodeUnits} (h : WellFormed us)
    (hall : WellFormed (us ++ vs)) : WellFormed vs where
  high i u hi hu := by
    have hnext := hall.high (us.length + i) u (by rw [getElem?_append_length, hi]) hu
    rwa [Nat.add_assoc, getElem?_append_length] at hnext
  low i v hi hv := by
    obtain ⟨j, u, hij, hj, hu⟩ :=
      hall.low (us.length + i) v (by rw [getElem?_append_length, hi]) hv
    cases i with
    | zero =>
      -- The high one would be the last of `us`, with nothing after it there.
      rw [List.getElem?_append_left (by omega)] at hj
      obtain ⟨w, hw, -⟩ := h.high j u hj hu
      have hlength := (List.getElem?_eq_some_iff.1 hw).1
      omega
    | succ k =>
      have hjk : j = us.length + k := by omega
      rw [hjk, getElem?_append_length] at hj
      exact ⟨k, u, rfl, hj, hu⟩

theorem WellFormed.append {us vs : CodeUnits} (h : WellFormed us) (hvs : WellFormed vs) :
    WellFormed (us ++ vs) where
  high i u hi hu := by
    rcases Nat.lt_or_ge i us.length with hlt | hge
    · rw [List.getElem?_append_left hlt] at hi
      obtain ⟨v, hv, hlow⟩ := h.high i u hi hu
      have hlength := (List.getElem?_eq_some_iff.1 hv).1
      exact ⟨v, by rw [List.getElem?_append_left hlength, hv], hlow⟩
    · obtain ⟨k, rfl⟩ := Nat.exists_eq_add_of_le hge
      rw [getElem?_append_length] at hi
      rw [Nat.add_assoc, getElem?_append_length]
      exact hvs.high k u hi hu
  low i v hi hv := by
    rcases Nat.lt_or_ge i us.length with hlt | hge
    · rw [List.getElem?_append_left hlt] at hi
      obtain ⟨j, u, hij, hj, hu⟩ := h.low i v hi hv
      exact ⟨j, u, hij, by rw [List.getElem?_append_left (by omega), hj], hu⟩
    · obtain ⟨k, rfl⟩ := Nat.exists_eq_add_of_le hge
      rw [getElem?_append_length] at hi
      obtain ⟨j, u, hkj, hj, hu⟩ := hvs.low k v hi hv
      exact ⟨us.length + j, u, by omega, by rw [getElem?_append_length, hj], hu⟩

theorem wellFormed_append_iff {us vs : CodeUnits} (h : WellFormed us) :
    WellFormed (us ++ vs) ↔ WellFormed vs :=
  ⟨h.of_append, h.append⟩

theorem WellFormed.not_isLow {u : UInt16} {us : CodeUnits} (h : WellFormed (u :: us)) :
    ¬isLow u = true := by
  intro hu
  obtain ⟨j, v, hj, -⟩ := h.low 0 u rfl hu
  omega

theorem isSome_toChars?_iff (us : CodeUnits) : (toChars? us).isSome = true ↔ WellFormed us := by
  fun_induction toChars? us with
  | case1 => exact iff_of_true rfl wellFormed_nil
  | case2 u hu =>
    refine iff_of_false (by simp) fun h => ?_
    rw [Bool.or_eq_true] at hu
    apply hu.elim
    · intro hhigh
      obtain ⟨v, hv, -⟩ := h.high 0 u rfl hhigh
      simp at hv
    · exact h.not_isLow
  | case3 u hu =>
    rw [Bool.or_eq_true, not_or] at hu
    exact iff_of_true rfl (wellFormed_unit hu.1 hu.2)
  | case4 u v us hu hv ih =>
    rw [Option.isSome_map, ih]
    exact (wellFormed_append_iff (wellFormed_pair hu hv)).symm
  | case5 u v us hu hv =>
    refine iff_of_false (by simp) fun h => ?_
    obtain ⟨w, hw, hlow⟩ := h.high 0 u rfl hu
    cases hw
    exact hv hlow
  | case6 u v us hu hlow => exact iff_of_false (by simp) fun h => h.not_isLow hlow
  | case7 u v us hu hlow ih =>
    rw [Option.isSome_map, ih]
    exact (wellFormed_append_iff (wellFormed_unit hu hlow)).symm

theorem toNat_ofNat_of_valid {n : Nat} (h : n.isValidChar) : (Char.ofNat n).toNat = n := by
  rw [Char.ofNat, dif_pos h]
  rfl

theorem ofCodePoint_unit {u : UInt16} (hhigh : ¬isHigh u = true) (hlow : ¬isLow u = true) :
    ofCodePoint (Char.ofNat u.toNat).toNat = [u] := by
  have hlt := u.toNat_lt
  rw [isHigh_iff] at hhigh
  rw [isLow_iff] at hlow
  have hvalid : u.toNat.isValidChar := by
    unfold Nat.isValidChar
    omega
  rw [toNat_ofNat_of_valid hvalid, ofCodePoint, if_pos hlt, Nat.toUInt16_eq, UInt16.ofNat_toNat]

theorem ofCodePoint_pair {u v : UInt16} (hu : isHigh u = true) (hv : isLow v = true) :
    ofCodePoint (Char.ofNat (joinPair u v)).toNat = [u, v] := by
  rw [isHigh_iff] at hu
  rw [isLow_iff] at hv
  have hvalid : (joinPair u v).isValidChar := by
    unfold Nat.isValidChar joinPair
    omega
  have hfirst : 0xD800 + (joinPair u v - 0x10000) / 0x400 = u.toNat := by
    unfold joinPair
    omega
  have hsecond : 0xDC00 + (joinPair u v - 0x10000) % 0x400 = v.toNat := by
    unfold joinPair
    omega
  have hge : ¬joinPair u v < 0x10000 := by
    unfold joinPair
    omega
  rw [toNat_ofNat_of_valid hvalid, ofCodePoint, if_neg hge, hfirst, hsecond, Nat.toUInt16_eq,
    Nat.toUInt16_eq, UInt16.ofNat_toNat, UInt16.ofNat_toNat]

theorem ofChars_of_toChars? {us : CodeUnits} {cs : List Char} (h : toChars? us = some cs) :
    ofChars cs = us := by
  have hcons (c : Char) (cs : List Char) :
      ofChars (c :: cs) = ofCodePoint c.toNat ++ ofChars cs := List.flatMap_cons
  fun_induction toChars? us generalizing cs with
  | case1 =>
    cases h
    rfl
  | case2 u hu => cases h
  | case3 u hu =>
    rw [Bool.or_eq_true, not_or] at hu
    cases h
    rw [hcons, ofCodePoint_unit hu.1 hu.2]
    rfl
  | case4 u v us hu hv ih =>
    obtain ⟨rest, hrest, rfl⟩ := Option.map_eq_some_iff.1 h
    rw [hcons, ofCodePoint_pair hu hv, ih hrest]
    rfl
  | case5 u v us hu hv => cases h
  | case6 u v us hu hlow => cases h
  | case7 u v us hu hlow ih =>
    obtain ⟨rest, hrest, rfl⟩ := Option.map_eq_some_iff.1 h
    rw [hcons, ofCodePoint_unit hu hlow, ih hrest]
    rfl

theorem toString?_eq_some_iff {us : CodeUnits} {s : String} :
    toString? us = some s ↔ ofString s = us := by
  constructor
  · intro h
    obtain ⟨cs, hcs, rfl⟩ := Option.map_eq_some_iff.1 h
    rw [ofString, String.toList_ofList, ofChars_of_toChars? hcs]
  · rintro rfl
    exact toString?_ofString s

theorem wellFormed_iff {us : CodeUnits} : us.WellFormed ↔ ∃ s, toString? us = some s := by
  rw [← isSome_toChars?_iff, ← Option.isSome_map (f := String.ofList), Option.isSome_iff_exists,
    toString?]

theorem not_wellFormed_iff {us : CodeUnits} : ¬us.WellFormed ↔ toString? us = none := by
  rw [wellFormed_iff, not_exists, Option.eq_none_iff_forall_ne_some]

instance (us : CodeUnits) : Decidable us.WellFormed :=
  decidable_of_iff _ (isSome_toChars?_iff us)

end Text.CodeUnits

section Calls

variable (src : Source) (span : Option Span) {s : Option Span} {callee argument : Node}
  (rest : List Node)

theorem outcome?_call (hcallee : isTranslationCallee callee = true) :
    outcome? src (.call span callee (argument :: rest)) =
      some (argumentOutcome (src.snippet span) argument) := by
  rw [outcome?, callOutcome?, if_pos hcallee]
  rfl

theorem outcome?_string {units : CodeUnits} (hcallee : isTranslationCallee callee = true)
    (hargument : Parenthesized (.string s units) argument) :
    outcome? src (.call span callee (argument :: rest)) =
      some ((units.toString?.map .accepted).getD
        (.rejected (src.snippet span) .unsupportedArgument)) := by
  rw [outcome?_call src span rest hcallee, Option.some.injEq, argumentOutcome_eq_iff]
  refine ⟨_, hargument, ?_⟩
  cases h : units.toString? with
  | none => exact .illFormedString h
  | some key => exact .string h

/-- The text of a stretch of a template: what its units encode if they are well formed, and what is
written if they are not or if there are none. -/
def SegmentKey (s : Segment) (text : String) : Prop :=
  (∃ units, s.cooked = some units ∧ units.WellFormed ∧ CodeUnits.ofString text = units) ∨
    (∀ units, s.cooked = some units → ¬units.WellFormed) ∧ text = s.raw

theorem segmentKey_iff {s : Segment} {text : String} : SegmentKey s text ↔ SegmentText s text := by
  constructor
  · rintro (⟨units, hs, -, htext⟩ | ⟨hs, rfl⟩)
    · obtain ⟨cooked, raw⟩ := s
      subst hs
      exact .cooked (CodeUnits.toString?_eq_some_iff.2 htext)
    · obtain ⟨_ | units, raw⟩ := s
      · exact .malformed
      · exact .illFormed (CodeUnits.not_wellFormed_iff.1 (hs units rfl))
  · rintro (h | h | _)
    · have hunits := CodeUnits.toString?_eq_some_iff.1 h
      exact .inl ⟨_, rfl, CodeUnits.wellFormed_iff.2 ⟨_, h⟩, hunits⟩
    · refine .inr ⟨fun units hu => ?_, rfl⟩
      cases hu
      exact CodeUnits.not_wellFormed_iff.2 h
    · refine .inr ⟨fun units hu => ?_, rfl⟩
      cases hu

theorem outcome?_template {segments : List Segment} {texts : List String}
    (hcallee : isTranslationCallee callee = true)
    (hargument : Parenthesized (.template s segments []) argument)
    (htexts : List.Forall₂ SegmentKey segments texts) :
    outcome? src (.call span callee (argument :: rest)) =
      some (.warned (String.join texts) .templateWithoutExpressions) := by
  rw [outcome?_call src span rest hcallee, Option.some.injEq, argumentOutcome_eq_iff]
  exact ⟨_, hargument, .plainTemplate (htexts.imp fun _ _ => segmentKey_iff.1)⟩

end Calls

theorem exists_segmentKeys (segments : List Segment) :
    ∃ texts, List.Forall₂ SegmentKey segments texts := by
  obtain ⟨texts, htexts, -⟩ := templateText_eq_iff.1 (rfl : templateText segments = _)
  exact ⟨texts, htexts.imp fun _ _ => segmentKey_iff.2⟩

def isKeyAttribute : Node → Bool
  | .attr _ (.plain name) _ => name == "i18nKey"
  | _ => false

theorem explicitKey?_filter (attributes : List Node) :
    explicitKey? (attributes.filter fun a => !isKeyAttribute a) = none := by
  rw [Option.eq_none_iff_forall_ne_some]
  intro key h
  rw [explicitKey?_eq_some_iff] at h
  generalize hkept : (attributes.filter fun a => !isKeyAttribute a) = kept at h
  cases h with
  | @mk before s s' units after key hb hk =>
    have hmem : Node.attr s (.plain "i18nKey") (some (.string s' units)) ∈
        attributes.filter fun a => !isKeyAttribute a := by
      rw [hkept]
      exact List.mem_append_right _ List.mem_cons_self
    have hnot := (List.mem_filter.1 hmem).2
    simp [isKeyAttribute] at hnot

theorem transOutcome_congr {attributes others : List Node}
    (h : explicitKey? attributes = explicitKey? others) (snippet : String) (children : List Node) :
    transOutcome snippet attributes children = transOutcome snippet others children := by
  rw [transOutcome, transOutcome, h]

/-- Units in three places. A string as the first argument of a translation call is accepted exactly
if its units are well formed, with the key that they encode, and rejected otherwise. A `Trans`
element has the key that the units of its first `i18nKey` encode, or none at all if they encode
none. A template without holes is accepted with a warning whatever its units are. -/
theorem outcome?_of_units (src : Source) (span s : Option Span) :
    (∀ (callee argument : Node) (rest : List Node) (units : CodeUnits),
      isTranslationCallee callee = true → Parenthesized (.string s units) argument →
      let verdict := outcome? src (.call span callee (argument :: rest))
      (∀ key, verdict = some (.accepted key) ↔ CodeUnits.ofString key = units) ∧
      ((∃ key, verdict = some (.accepted key)) ↔ units.WellFormed) ∧
      (¬units.WellFormed → verdict = some (.rejected (src.snippet span) .unsupportedArgument))) ∧
    (∀ (before after children : List Node) (s' : Option Span) (units : CodeUnits),
      (∀ s value, Node.attr s (.plain "i18nKey") value ∉ before) →
      let attributes := before ++ .attr s (.plain "i18nKey") (some (.string s' units)) :: after
      let verdict := fun attributes =>
        outcome? src (.element span (.plain "Trans") attributes children)
      (units.WellFormed → ∃ key, CodeUnits.ofString key = units ∧
        ((children = [] ∨ ∃ text, SimpleText children text) →
          verdict attributes = some (.accepted key)) ∧
        (children ≠ [] → (∀ text, ¬SimpleText children text) →
          verdict attributes = some (.rejected key .complexTransChildren))) ∧
      (¬units.WellFormed →
        verdict attributes = verdict (attributes.filter fun a => !isKeyAttribute a))) ∧
    ∀ (callee argument : Node) (rest : List Node) (segments : List Segment),
      isTranslationCallee callee = true → Parenthesized (.template s segments []) argument →
      (∃ texts, List.Forall₂ SegmentKey segments texts) ∧
      ∀ texts, List.Forall₂ SegmentKey segments texts →
        outcome? src (.call span callee (argument :: rest)) =
          some (.warned (String.join texts) .templateWithoutExpressions) := by
  refine ⟨?_, ?_, ?_⟩
  · intro callee argument rest units hcallee hargument
    have hverdict := outcome?_string src span rest hcallee hargument
    have hkey (key : String) : outcome? src (.call span callee (argument :: rest)) =
        some (.accepted key) ↔ units.toString? = some key := by
      rw [hverdict]
      cases units.toString? <;> simp
    refine ⟨fun key => ?_, ?_, fun hill => ?_⟩
    · rw [hkey, CodeUnits.toString?_eq_some_iff]
    · rw [CodeUnits.wellFormed_iff]
      exact exists_congr hkey
    · rw [hverdict, CodeUnits.not_wellFormed_iff.1 hill, Option.map_none, Option.getD_none]
  · intro before after children s' units hb
    have hexplicit := explicitKey?_append hb s s' units after
    refine ⟨fun hwell => ?_, fun hill => ?_⟩
    · obtain ⟨key, hkey⟩ := CodeUnits.wellFormed_iff.1 hwell
      have hattribute := explicitKey?_eq_some_iff.1 (hexplicit.trans hkey)
      refine ⟨key, CodeUnits.toString?_eq_some_iff.1 hkey, ?_, fun hne hnone => ?_⟩
      · rintro (hempty | ⟨text, htext⟩)
        · exact outcome?_eq_some_iff.2 (.element (.keyAlone hattribute hempty))
        · exact outcome?_eq_some_iff.2 (.element (.keyAndText hattribute htext))
      · exact outcome?_eq_some_iff.2 (.element (.keyAndMore hattribute hne hnone))
    · rw [CodeUnits.not_wellFormed_iff.1 hill] at hexplicit
      apply congrArg some
      apply transOutcome_congr
      rw [hexplicit, explicitKey?_filter]
  · intro callee argument rest segments hcallee hargument
    refine ⟨exists_segmentKeys segments, fun texts htexts => ?_⟩
    exact outcome?_template src span rest hcallee hargument htexts

def pairedUnits : CodeUnits := [0x61, 0xD83D, 0xDE00, 0x62]

def reversedUnits : CodeUnits := [0xDE00, 0xD83D]

/-- Calls of `i18next.t` in parentheses, and an element whose second key is not looked at. -/
theorem outcome?_of_units_surrogates :
    let callee := Node.member none (.identifier none "i18next") (.identifier none "t") false
    let keyed := fun units =>
      Node.attr none (.plain "i18nKey") (some (.string none units))
    pairedUnits.WellFormed ∧ ¬reversedUnits.WellFormed ∧
      outcome? ⟨[]⟩ (.call none callee [.paren none (.string none pairedUnits)]) =
        some (.accepted "a😀b") ∧
      outcome? ⟨[]⟩ (.call none callee [.string none reversedUnits]) =
        some (.rejected "" .unsupportedArgument) ∧
      outcome? ⟨[]⟩ (.element none (.plain "Trans") [keyed reversedUnits, keyed pairedUnits]
        [.text none " c "]) = some (.accepted "c") ∧
      outcome? ⟨[]⟩ (.call none callee [.template none
        [⟨some pairedUnits, "1"⟩, ⟨some reversedUnits, "2"⟩, ⟨none, "3"⟩] []]) =
        some (.warned "a😀b23" .templateWithoutExpressions) := by
  intro callee keyed
  have hcallee : isTranslationCallee callee = true := by decide
  have hwell : pairedUnits.WellFormed := by decide
  have hill : ¬reversedUnits.WellFormed := by decide
  have hkey : CodeUnits.ofString "a😀b" = pairedUnits := by decide
  obtain ⟨hcalls, helements, htemplates⟩ := outcome?_of_units ⟨[]⟩ none none
  refine ⟨hwell, hill, ?_, ?_, ?_, ?_⟩
  · exact ((hcalls callee _ [] pairedUnits hcallee (.paren .bare)).1 _).2 hkey
  · exact (hcalls callee _ [] reversedUnits hcallee .bare).2.2 hill
  · have h := (helements [] [keyed pairedUnits] [.text none " c "] none reversedUnits
      (by simp)).2 hill
    rw [List.nil_append] at h
    exact h.trans (by decide)
  · refine (htemplates callee _ [] _ hcallee .bare).2 ["a😀b", "2", "3"] ?_
    refine .cons (.inl ⟨_, rfl, hwell, hkey⟩) (.cons (.inr ⟨?_, rfl⟩) (.cons (.inr ⟨?_, rfl⟩) .nil))
    · rintro units ⟨⟩
      exact hill
    · rintro units ⟨⟩

end MessageKeys

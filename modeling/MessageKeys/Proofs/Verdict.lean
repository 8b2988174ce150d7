import MessageKeys.Keys.Outcome
import MessageKeys.Proofs.StringOrder

namespace MessageKeys

open Syntax (Node Segment)
open Text (Source CodeUnits)

inductive Parenthesized (n : Node) : Node → Prop
  | bare : Parenthesized n n
  | paren {s m} : Parenthesized n m → Parenthesized n (.paren s m)

def IsParen (n : Node) : Prop := ∃ s m, n = .paren s m

theorem stripParens_eq_iff {n core : Node} :
    n.stripParens = core ↔ Parenthesized core n ∧ ¬IsParen core := by
  fun_induction Node.stripParens n with
  | case1 s m ih =>
    rw [ih]
    refine and_congr_left fun hcore => ⟨.paren, fun h => ?_⟩
    cases h with
    | bare => exact absurd ⟨s, m, rfl⟩ hcore
    | paren h => exact h
  | case2 n hn =>
    have hp : ¬IsParen n := fun ⟨s, m, h⟩ => hn s m h
    constructor
    · rintro rfl
      exact ⟨.bare, hp⟩
    · rintro ⟨h, -⟩
      cases h with
      | bare => rfl
      | paren _ => exact absurd ⟨_, _, rfl⟩ hp

/-- The names under which the translation function is called. -/
inductive TranslationName : Node → Prop
  | plain {s} : TranslationName (.identifier s "t")
  | member {s s₁ s₂} :
    TranslationName (.member s (.identifier s₁ "i18next") (.identifier s₂ "t") false)

theorem isTranslationCallee_iff {callee : Node} :
    isTranslationCallee callee = true ↔
      ∃ name, TranslationName name ∧ Parenthesized name callee := by
  have hname : isTranslationCallee callee = true ↔ TranslationName callee.stripParens := by
    unfold isTranslationCallee
    generalize callee.stripParens = core
    constructor
    · intro h
      split at h
      · rw [beq_iff_eq.1 h]
        exact .plain
      · rw [Bool.and_eq_true, beq_iff_eq, beq_iff_eq] at h
        rw [h.1, h.2]
        exact .member
      · cases h
    · rintro (_ | _) <;> rfl
  rw [hname]
  constructor
  · exact fun h => ⟨_, h, (stripParens_eq_iff.1 rfl).1⟩
  · rintro ⟨name, hn, hp⟩
    have hs : ¬IsParen name := by
      rintro ⟨s, m, rfl⟩
      cases hn
    rwa [stripParens_eq_iff.2 ⟨hp, hs⟩]

/-- The text of a stretch of a template: what it means, or what is written if that is no text. -/
inductive SegmentText : Segment → String → Prop
  | cooked {units raw text} : CodeUnits.toString? units = some text →
    SegmentText ⟨some units, raw⟩ text
  | illFormed {units raw} : CodeUnits.toString? units = none → SegmentText ⟨some units, raw⟩ raw
  | malformed {raw} : SegmentText ⟨none, raw⟩ raw

theorem segmentText_iff {s : Segment} {text : String} :
    SegmentText s text ↔ (s.cooked.bind CodeUnits.toString?).getD s.raw = text := by
  obtain ⟨_ | units, raw⟩ := s
  · constructor
    · rintro ⟨⟩
      rfl
    · rintro rfl
      exact .malformed
  · cases h : CodeUnits.toString? units with
    | none =>
      constructor
      · rintro (h' | h')
        · simp [h] at h'
        · simp [h]
      · intro ht
        simp only [Option.bind_some, h, Option.getD_none] at ht
        exact ht ▸ .illFormed h
    | some t =>
      constructor
      · rintro (h' | h')
        · simpa [h] using h'
        · simp [h] at h'
      · intro ht
        simp only [Option.bind_some, h, Option.getD_some] at ht
        exact ht ▸ .cooked h

theorem templateText_eq_iff {segments : List Segment} {text : String} :
    templateText segments = text ↔
      ∃ texts, List.Forall₂ SegmentText segments texts ∧ String.join texts = text := by
  have hmap := forall₂_iff_map_eq (r := SegmentText) (fun _ _ => segmentText_iff) segments
  simp only [hmap, exists_eq_left', templateText]

/-- What the first argument of a translation call makes of it, where `snippet` is the whole call. -/
inductive ArgumentVerdict (snippet : String) : Node → Outcome → Prop
  | string {s units key} : CodeUnits.toString? units = some key →
    ArgumentVerdict snippet (.string s units) (.accepted key)
  | illFormedString {s units} : CodeUnits.toString? units = none →
    ArgumentVerdict snippet (.string s units) (.rejected snippet .unsupportedArgument)
  | plainTemplate {s segments texts} : List.Forall₂ SegmentText segments texts →
    ArgumentVerdict snippet (.template s segments [])
      (.warned (String.join texts) .templateWithoutExpressions)
  | template {s segments hole holes} :
    ArgumentVerdict snippet (.template s segments (hole :: holes))
      (.rejected snippet .templateWithExpressions)
  | other {argument} : (∀ s units, argument ≠ .string s units) →
    (∀ s segments holes, argument ≠ .template s segments holes) → ¬IsParen argument →
    ArgumentVerdict snippet argument (.rejected snippet .unsupportedArgument)

theorem argumentVerdict_iff {snippet : String} {argument : Node} {o : Outcome}
    (hp : ¬IsParen argument) :
    ArgumentVerdict snippet argument o ↔ argumentOutcome snippet argument = o := by
  have hs : argument.stripParens = argument := stripParens_eq_iff.2 ⟨.bare, hp⟩
  rw [argumentOutcome, hs]
  constructor
  -- One row of the table after the other.
  · rintro (h | h | h | _ | ⟨hstr, htpl, -⟩)
    · simp only [h]
    · simp only [h]
    · simp only [templateText_eq_iff.2 ⟨_, h, rfl⟩]
    · rfl
    · split
      · exact absurd rfl (hstr _ _)
      · exact absurd rfl (htpl _ _ _)
      · exact absurd rfl (htpl _ _ _)
      · rfl
  · rintro rfl
    split
    · split
      · exact .string ‹_›
      · exact .illFormedString ‹_›
    · obtain ⟨texts, ht, hj⟩ := templateText_eq_iff.1 rfl
      exact hj ▸ .plainTemplate ht
    next holes hne =>
      cases holes with
      | nil => exact absurd rfl hne
      | cons hole holes => exact .template
    next hstr _ htpl =>
      exact .other (fun s units h => hstr s units h) (fun s _ _ h => htpl s _ _ h) hp

theorem argumentOutcome_eq_iff {snippet : String} {argument : Node} {o : Outcome} :
    argumentOutcome snippet argument = o ↔
      ∃ core, Parenthesized core argument ∧ ArgumentVerdict snippet core o := by
  have hstrip := stripParens_eq_iff.1 (rfl : argument.stripParens = _)
  have hidem := stripParens_eq_iff.2 ⟨.bare, hstrip.2⟩
  have heq : argumentOutcome snippet argument = argumentOutcome snippet argument.stripParens := by
    rw [argumentOutcome, argumentOutcome, hidem]
  constructor
  · intro h
    exact ⟨_, hstrip.1, (argumentVerdict_iff hstrip.2).2 (heq ▸ h)⟩
  · rintro ⟨core, hp, hv⟩
    have hcore : ¬IsParen core := by
      rintro ⟨s, m, rfl⟩
      cases hv with
      | other _ _ hn => exact hn ⟨s, m, rfl⟩
    rw [heq, stripParens_eq_iff.2 ⟨hp, hcore⟩]
    exact (argumentVerdict_iff hcore).1 hv

/-- The key of the first attribute that is called `i18nKey`, where that is a string literal. -/
inductive KeyAttribute : List Node → String → Prop
  | mk {before s s' units after key} :
    (∀ s value, Node.attr s (.plain "i18nKey") value ∉ before) →
    CodeUnits.toString? units = some key →
    KeyAttribute (before ++ .attr s (.plain "i18nKey") (some (.string s' units)) :: after) key

/-- Only the first attribute of the name counts, and what its units spell is the key. -/
theorem explicitKey?_append {before : List Node}
    (hb : ∀ s value, Node.attr s (.plain "i18nKey") value ∉ before) (s s' : Option Text.Span)
    (units : CodeUnits) (after : List Node) :
    explicitKey? (before ++ .attr s (.plain "i18nKey") (some (.string s' units)) :: after) =
      units.toString? := by
  rw [explicitKey?, List.find?_append, List.find?_eq_none.2, Option.none_or,
    List.find?_cons_of_pos rfl]
  intro a ha hn
  cases a with
  | attr s name value =>
    rw [beq_iff_eq.1 hn] at ha
    exact hb _ _ ha
  | _ => cases hn

theorem explicitKey?_eq_some_iff {attributes : List Node} {key : String} :
    explicitKey? attributes = some key ↔ KeyAttribute attributes key := by
  constructor
  · intro h
    unfold explicitKey? at h
    split at h
    next s name s' units hf =>
      obtain ⟨hn, before, after, rfl, hb⟩ := List.find?_eq_some_iff_append.1 hf
      obtain rfl : name = .plain "i18nKey" := beq_iff_eq.1 hn
      -- It is the first that was found, so none before it has the name.
      refine .mk (fun s value hmem => ?_) h
      have hv := hb _ hmem
      simp at hv
    · cases h
  · rintro ⟨hb, hk⟩
    rw [explicitKey?_append hb, hk]

section Trimming

open Text (isBlank trim trimStart trimEnd)

/-- Neither the first nor the last character is blank. -/
structure Trimmed (cs : List Char) : Prop where
  head : ∀ c ∈ cs.head?, isBlank c = false
  last : ∀ c ∈ cs.getLast?, isBlank c = false

theorem trim_append {before mid after : List Char} (hb : ∀ c ∈ before, isBlank c = true)
    (ha : ∀ c ∈ after, isBlank c = true) (hne : mid ≠ []) (hm : Trimmed mid) :
    trim (before ++ mid ++ after) = mid := by
  have hhead : (mid ++ after).head? = mid.head? := List.head?_append_of_ne_nil _ hne
  have hstart : trimStart (before ++ (mid ++ after)) = mid ++ after :=
    Text.dropWhile_append_eq hb (hhead ▸ hm.head)
  -- The end is trimmed as the start of the reversed text.
  have hend : trimStart (after.reverse ++ mid.reverse) = mid.reverse :=
    Text.dropWhile_append_eq (by simpa using ha) (by simpa using hm.last)
  rw [trim, List.append_assoc, hstart, trimEnd, List.reverse_append, hend, List.reverse_reverse]

theorem trimStart_spec (cs : List Char) :
    ∃ before, cs = before ++ trimStart cs ∧ (∀ c ∈ before, isBlank c = true) ∧
      ∀ c ∈ (trimStart cs).head?, isBlank c = false := by
  refine ⟨cs.takeWhile isBlank, List.takeWhile_append_dropWhile.symm, ?_, ?_⟩
  · exact List.all_eq_true.1 List.all_takeWhile
  · intro c hc
    have h := List.head?_dropWhile_not isBlank cs
    rw [trimStart] at hc
    rwa [Option.mem_def.1 hc] at h

theorem trim_spec (cs : List Char) :
    ∃ before after, cs = before ++ trim cs ++ after ∧ (∀ c ∈ before, isBlank c = true) ∧
      (∀ c ∈ after, isBlank c = true) ∧ Trimmed (trim cs) := by
  obtain ⟨before, hcs, hb, hhead⟩ := trimStart_spec cs
  obtain ⟨after, hrev, ha, hlast⟩ := trimStart_spec (trimStart cs).reverse
  have hmid : trimStart cs = trim cs ++ after.reverse := by
    rw [trim, trimEnd, ← List.reverse_append, ← hrev, List.reverse_reverse]
  refine ⟨before, after.reverse, by rw [List.append_assoc, ← hmid, ← hcs], hb,
    by simpa using ha, fun c hc => hhead c ?_, fun c hc => hlast c ?_⟩
  · rw [hmid, Option.mem_def, List.head?_append_of_ne_nil]
    · exact hc
    · rintro h
      simp [h] at hc
  · simpa [trim, trimEnd] using hc

end Trimming

/-- The text of an only child, without the blanks around it. -/
inductive SimpleText : List Node → String → Prop
  | mk {s value before text after} : value.toList = before ++ text.toList ++ after →
    (∀ c ∈ before, Text.isBlank c = true) → (∀ c ∈ after, Text.isBlank c = true) →
    text ≠ "" → Trimmed text.toList → SimpleText [.text s value] text

theorem simpleText?_eq_some_iff {children : List Node} {text : String} :
    simpleText? children = some text ↔ SimpleText children text := by
  constructor
  · intro h
    unfold simpleText? at h
    split at h
    next s value =>
      dsimp only at h
      split at h
      · cases h
      next hne =>
        cases h
        obtain ⟨before, after, hv, hb, ha, ht⟩ := trim_spec value.toList
        refine .mk (by simpa using hv) hb ha ?_ (by simpa using ht)
        simpa [List.isEmpty_iff] using hne
    · cases h
  · rintro ⟨hv, hb, ha, hne, ht⟩
    have hl : String.toList text ≠ [] := by simpa using hne
    simp only [simpleText?, hv, trim_append hb ha hl ht, List.isEmpty_iff, hl, if_false,
      String.ofList_toList]

/-- What the attributes and the children of a translation element make of it, where `snippet` is the
whole element. -/
inductive ElementVerdict (snippet : String) (attributes children : List Node) : Outcome → Prop
  | keyAndText {key text} : KeyAttribute attributes key → SimpleText children text →
    ElementVerdict snippet attributes children (.accepted key)
  | keyAlone {key} : KeyAttribute attributes key → children = [] →
    ElementVerdict snippet attributes children (.accepted key)
  | keyAndMore {key} : KeyAttribute attributes key → children ≠ [] →
    (∀ text, ¬SimpleText children text) →
    ElementVerdict snippet attributes children (.rejected key .complexTransChildren)
  | text {text} : (∀ key, ¬KeyAttribute attributes key) → SimpleText children text →
    ElementVerdict snippet attributes children (.accepted text)
  | neither : (∀ key, ¬KeyAttribute attributes key) → (∀ text, ¬SimpleText children text) →
    ElementVerdict snippet attributes children (.rejected snippet .missingKeyOrComplexChildren)

theorem transOutcome_eq_iff {snippet : String} {attributes children : List Node} {o : Outcome} :
    transOutcome snippet attributes children = o ↔
      ElementVerdict snippet attributes children o := by
  have hkey (key) : explicitKey? attributes = some key ↔ _ := explicitKey?_eq_some_iff
  have htext (text) : simpleText? children = some text ↔ _ := simpleText?_eq_some_iff
  unfold transOutcome
  constructor
  -- Is there a key, and is there a text: four cases, of which the first without a text asks whether
  -- there are children at all.
  · rintro rfl
    split
    next hk ht => exact .keyAndText ((hkey _).1 hk) ((htext _).1 ht)
    next hk ht =>
      split
      next hc => exact .keyAlone ((hkey _).1 hk) (List.isEmpty_iff.1 hc)
      next hc =>
        refine .keyAndMore ((hkey _).1 hk) (by simpa using hc) fun text h => ?_
        simp [(htext text).2 h] at ht
    next hk ht =>
      refine .text (fun key h => ?_) ((htext _).1 ht)
      simp [(hkey key).2 h] at hk
    next hk ht =>
      refine .neither (fun key h => ?_) fun text h => ?_
      · simp [(hkey key).2 h] at hk
      · simp [(htext text).2 h] at ht
  · have hnokey (h : ∀ key, ¬KeyAttribute attributes key) : explicitKey? attributes = none :=
      Option.eq_none_iff_forall_ne_some.2 fun key hk => h key ((hkey key).1 hk)
    have hnotext (h : ∀ text, ¬SimpleText children text) : simpleText? children = none :=
      Option.eq_none_iff_forall_ne_some.2 fun text ht => h text ((htext text).1 ht)
    rintro (⟨hk, ht⟩ | ⟨hk, rfl⟩ | ⟨hk, hc, ht⟩ | ⟨hk, ht⟩ | ⟨hk, ht⟩)
    · rw [(hkey _).2 hk, (htext _).2 ht]
    · rw [(hkey _).2 hk]
      rfl
    · rw [(hkey _).2 hk, hnotext ht]
      exact if_neg (by simpa using hc)
    · rw [hnokey hk, (htext _).2 ht]
    · rw [hnokey hk, hnotext ht]

/-- The verdict on a node: a call of the translation function by its first argument, a `Trans`
element by its attributes and children. -/
inductive Verdict (src : Source) : Node → Outcome → Prop
  | call {s callee name argument core rest o} :
    TranslationName name → Parenthesized name callee →
    Parenthesized core argument → ArgumentVerdict (src.snippet s) core o →
    Verdict src (.call s callee (argument :: rest)) o
  | element {s attributes children o} : ElementVerdict (src.snippet s) attributes children o →
    Verdict src (.element s (.plain "Trans") attributes children) o

theorem outcome?_eq_some_iff {src : Source} {n : Node} {o : Outcome} :
    outcome? src n = some o ↔ Verdict src n o := by
  constructor
  · intro h
    unfold outcome? at h
    split at h
    next s callee arguments =>
      unfold callOutcome? at h
      split at h
      next hc =>
        obtain ⟨name, hn, hp⟩ := isTranslationCallee_iff.1 hc
        cases arguments with
        -- A call without arguments has no verdict.
        | nil => cases h
        | cons argument rest =>
          obtain ⟨core, hcore, hv⟩ := argumentOutcome_eq_iff.1 (Option.some.inj h)
          exact .call hn hp hcore hv
      · cases h
    · exact .element (transOutcome_eq_iff.1 (Option.some.inj h))
    · cases h
  · rintro (⟨hn, hp, hcore, hv⟩ | hv)
    · rw [outcome?, callOutcome?, if_pos (isTranslationCallee_iff.2 ⟨_, hn, hp⟩)]
      exact congrArg some (argumentOutcome_eq_iff.2 ⟨_, hcore, hv⟩)
    · exact congrArg some (transOutcome_eq_iff.2 hv)

end MessageKeys

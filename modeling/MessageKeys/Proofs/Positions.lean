import MessageKeys.Proofs.Merging

namespace MessageKeys

open Syntax (Node Module)
open Text (Source Span byteLength)

namespace Text

theorem length_utf8Bytes_ofList (cs : List Char) :
    (utf8Bytes (String.ofList cs)).length = byteLength cs := by
  induction cs with
  | nil => rfl
  | cons c cs ih =>
    rw [utf8Bytes_ofList_cons, List.length_append, ih, String.length_utf8EncodeChar,
      byteLength_cons]

theorem eq_nil_of_byteLength_eq_zero {cs : List Char} (h : byteLength cs = 0) : cs = [] := by
  cases cs with
  | nil => rfl
  | cons c cs =>
    have hc := c.utf8Size_pos
    rw [byteLength_cons] at h
    omega

theorem utf8Bytes_ofList_append (cs ds : List Char) :
    utf8Bytes (String.ofList (cs ++ ds)) =
      utf8Bytes (String.ofList cs) ++ utf8Bytes (String.ofList ds) := by
  induction cs with
  | nil => rfl
  | cons c cs ih =>
    rw [List.cons_append, utf8Bytes_ofList_cons, ih, utf8Bytes_ofList_cons, List.append_assoc]

section Slices

variable {lo hi offset : Nat}

theorem sliceFrom_before {before : List Char} (h : offset + byteLength before ≤ lo)
    (rest : List Char) :
    sliceFrom lo hi offset (before ++ rest) =
      sliceFrom lo hi (offset + byteLength before) rest := by
  induction before generalizing offset with
  | nil => rfl
  | cons c before ih =>
    have hc := c.utf8Size_pos
    rw [byteLength_cons] at h
    rw [List.cons_append, sliceFrom, if_neg (by omega), ih (by omega), byteLength_cons,
      Nat.add_assoc]

theorem sliceFrom_inside {mid : List Char} (hlo : lo ≤ offset)
    (h : offset + byteLength mid ≤ hi) (rest : List Char) :
    sliceFrom lo hi offset (mid ++ rest) =
      mid ++ sliceFrom lo hi (offset + byteLength mid) rest := by
  induction mid generalizing offset with
  | nil => rfl
  | cons c mid ih =>
    have hc := c.utf8Size_pos
    rw [byteLength_cons] at h
    rw [List.cons_append, sliceFrom, if_pos (by omega), ih (by omega) (by omega), byteLength_cons,
      Nat.add_assoc, List.cons_append]

theorem sliceFrom_after (h : hi ≤ offset) (rest : List Char) : sliceFrom lo hi offset rest = [] := by
  induction rest generalizing offset with
  | nil => rfl
  | cons c rest ih => rw [sliceFrom, if_neg (by omega), ih (by omega)]

end Slices

theorem sliceFrom_append (before mid after : List Char) :
    sliceFrom (byteLength before) (byteLength before + byteLength mid) 0
      (before ++ (mid ++ after)) = mid := by
  rw [sliceFrom_before (by omega), sliceFrom_inside (by omega) (by omega),
    sliceFrom_after (by omega), List.append_nil]

namespace Source

def bytes (src : Source) : List UInt8 := utf8Bytes (String.ofList src.chars)

theorem length_bytes (src : Source) : src.bytes.length = src.size :=
  length_utf8Bytes_ofList src.chars

/-- An offset where a character begins, or the end of the text. -/
def IsBoundary (src : Source) (offset : Nat) : Prop :=
  ∃ before after, src.chars = before ++ after ∧ (utf8Bytes (String.ofList before)).length = offset

end Source

/-- A span that cuts no character in two. -/
structure Span.IsValid (src : Source) (s : Span) : Prop where
  start_le_stop : s.start ≤ s.stop
  start : src.IsBoundary s.start
  stop : src.IsBoundary s.stop

theorem Span.IsValid.exists_parts {src : Source} {s : Span} (h : s.IsValid src) :
    ∃ before mid after, src.chars = before ++ (mid ++ after) ∧ s.start = byteLength before ∧
      s.stop = byteLength before + byteLength mid := by
  obtain ⟨before, rest, hbefore, hstart⟩ := h.start
  obtain ⟨upTo, after, hupTo, hstop⟩ := h.stop
  have hle := h.start_le_stop
  rw [length_utf8Bytes_ofList] at hstart hstop
  rcases List.append_eq_append_iff.1 (hbefore.symm.trans hupTo) with
    ⟨mid, rfl, rfl⟩ | ⟨mid, rfl, rfl⟩
  · rw [byteLength_append] at hstop
    exact ⟨before, mid, after, hbefore, hstart.symm, hstop.symm⟩
  · -- The end would come first, so the two are the same place.
    rw [byteLength_append] at hstart
    have hmid : byteLength mid = 0 := by omega
    obtain rfl := eq_nil_of_byteLength_eq_zero hmid
    exact ⟨upTo, [], rest, hupTo, by simp [← hstart], by simp [← hstop]⟩

theorem utf8Bytes_snippet {src : Source} {s : Span} (h : s.IsValid src) :
    utf8Bytes (src.snippet (some s)) = (src.bytes.take s.stop).drop s.start := by
  obtain ⟨before, mid, after, hchars, hstart, hstop⟩ := h.exists_parts
  have hbefore := length_utf8Bytes_ofList before
  have hmid := length_utf8Bytes_ofList mid
  have htake : src.bytes.take s.stop =
      utf8Bytes (String.ofList before) ++ utf8Bytes (String.ofList mid) := by
    rw [Source.bytes, hchars, hstop, utf8Bytes_ofList_append, utf8Bytes_ofList_append,
      ← List.append_assoc]
    apply List.take_left'
    rw [List.length_append, hbefore, hmid]
  rw [htake, List.drop_left' (hbefore.trans hstart.symm), Source.snippet, hchars, hstart, hstop,
    sliceFrom_append]

/-- Does a line break end with this character? A carriage return before a line feed is only the
first half of one. -/
def endsLine (cs : List Char) (i : Nat) : Bool :=
  cs[i]? == some '\n' || cs[i]? == some '\r' && cs[i + 1]? != some '\n'

theorem endsLine_succ (c : Char) (cs : List Char) (i : Nat) :
    endsLine (c :: cs) (i + 1) = endsLine cs i := rfl

/-- How many line breaks end at an offset or before it, where the first character is at `start`. -/
def countBreaks (start offset : Nat) (cs : List Char) : Nat :=
  (List.range cs.length).countP fun i =>
    endsLine cs i && start + byteLength (cs.take (i + 1)) ≤ offset

theorem countBreaks_cons (start offset : Nat) (c : Char) (cs : List Char) :
    countBreaks start offset (c :: cs) =
      (if endsLine (c :: cs) 0 && start + c.utf8Size ≤ offset then 1 else 0) +
        countBreaks (start + c.utf8Size) offset cs := by
  rw [countBreaks, List.length_cons, List.range_succ_eq_map, List.countP_cons, List.countP_map,
    Nat.add_comm]
  simp only [countBreaks, Function.comp_def, endsLine_succ, List.take_succ_cons, byteLength_cons,
    Nat.add_assoc]
  simp

theorem countP_breaksFrom (start offset : Nat) (cs : List Char) :
    (breaksFrom start cs).countP (· ≤ offset) = countBreaks start offset cs := by
  fun_induction breaksFrom start cs with
  | case1 start => rfl
  | case2 start cs ih =>
    have hfirst : endsLine ('\r' :: '\n' :: cs) 0 = false := rfl
    have hsecond : endsLine ('\n' :: cs) 0 = true := rfl
    have hsizes : '\r'.utf8Size = 1 ∧ '\n'.utf8Size = 1 := by decide
    rw [List.countP_cons, ih, Nat.add_comm, countBreaks_cons, countBreaks_cons, hfirst, hsecond,
      hsizes.1, hsizes.2]
    simp [Nat.add_assoc]
  | case3 start c cs hpair hc ih =>
    have hends : endsLine (c :: cs) 0 = true := by
      rcases hc with rfl | rfl
      · rfl
      · cases cs with
        | nil => rfl
        | cons d ds =>
          have hd : d ≠ '\n' := fun h => hpair ds rfl (h ▸ rfl)
          simp [endsLine, hd]
    have hsize : c.utf8Size = 1 := by
      rcases hc with rfl | rfl <;> decide
    rw [List.countP_cons, ih, Nat.add_comm, countBreaks_cons, hends, hsize]
    simp
  | case4 start c cs hpair hc ih =>
    have hends : endsLine (c :: cs) 0 = false := by
      simp only [not_or] at hc
      simp [endsLine, hc]
    rw [ih, countBreaks_cons, hends]
    simp

namespace Source

/-- How many line breaks end at an offset or before it. -/
def breaksUpTo (src : Source) (offset : Nat) : Nat := countBreaks 0 offset src.chars

theorem lineAt_eq {src : Source} {offset : Nat} (h : offset < src.size) :
    src.lineAt offset = 1 + src.breaksUpTo offset := by
  have hkept : ∀ start ∈ 0 :: breaksFrom 0 src.chars,
      (start ≤ offset && start < src.size) = decide (start ≤ offset) := by
    intro start _
    rw [Bool.and_eq_left_iff_imp, decide_eq_true_iff, decide_eq_true_iff]
    omega
  rw [lineAt, lineStarts, List.countP_filter, List.countP_congr fun start hs => by rw [hkept start hs],
    List.countP_cons, countP_breaksFrom, breaksUpTo]
  simp [Nat.add_comm]

theorem lineAt_mono (src : Source) {a b : Nat} (h : a ≤ b) : src.lineAt a ≤ src.lineAt b := by
  apply List.countP_mono_left
  intro start _ hstart
  rw [decide_eq_true_iff] at hstart ⊢
  omega

end Source

end Text

/-- Is the text of the call or element quoted, for want of a key? -/
def Reason.quotesSource : Reason → Bool
  | .templateWithExpressions | .unsupportedArgument | .missingKeyOrComplexChildren => true
  | .templateWithoutExpressions | .complexTransChildren => false

/-- What a record says about the place of a node. -/
structure Record.Locates (src : Source) (n : Node) (r : Record) : Prop where
  quote : ∀ s, n.span = some s → r.reason.quotesSource = true →
    utf8Bytes r.key = (src.bytes.take s.stop).drop s.start
  line : ∀ s, n.span = some s → s.start < src.bytes.length →
    r.line = some (1 + src.breaksUpTo s.start)
  absent : n.span = none → r.line = none ∧ (r.reason.quotesSource = true → r.key = "")

theorem Verdict.key_of_quotesSource {src : Source} {n : Node} {key : String} {reason : Reason}
    (h : Verdict src n (.rejected key reason)) (hq : reason.quotesSource = true) :
    key = src.snippet n.span := by
  cases h with
  | call _ _ _ h =>
    cases h with
    | illFormedString _ => rfl
    | template => rfl
    | other _ _ _ => rfl
  | element h =>
    cases h with
    | keyAndMore _ _ _ => cases hq
    | neither _ _ => rfl

theorem Record.locates {src : Source} {n : Node} {key : String} {reason : Reason}
    (hspan : ∀ s, n.span = some s → s.IsValid src)
    (hkey : reason.quotesSource = true → key = src.snippet n.span) (label : String) :
    Record.Locates src n ⟨key, reason, label, src.line? n.span⟩ where
  quote s hs hq := by
    rw [hkey hq, hs, Text.utf8Bytes_snippet (hspan s hs)]
  line s hs hlt := by
    rw [Source.length_bytes] at hlt
    rw [hs, Source.line?, Option.map_some, Source.lineAt_eq hlt]
  absent hn := by
    refine ⟨by rw [hn, Source.line?, Option.map_none], fun hq => ?_⟩
    rw [hkey hq, hn, Source.snippet]

namespace Outcome

def isWarned : Outcome → Bool
  | warned _ _ => true
  | _ => false

def isRejected : Outcome → Bool
  | rejected _ _ => true
  | _ => false

end Outcome

theorem forall₂_filter_filterMap {α β : Type} {r : α → β → Prop} {f : α → Option β} {p : α → Bool}
    {as : List α} (hp : ∀ a, p a = (f a).isSome) (h : ∀ a ∈ as, ∀ b, f a = some b → r a b) :
    List.Forall₂ r (as.filter p) (as.filterMap f) := by
  induction as with
  | nil => exact .nil
  | cons a as ih =>
    have has := ih fun a ha => h a (List.mem_cons_of_mem _ ha)
    rw [List.filter_cons, List.filterMap_cons, hp]
    cases hf : f a with
    | none => exact has
    | some b => exact .cons (h a List.mem_cons_self b hf) has

section Records

variable {src : Source} (label : String) {m : Module}
  (hspans : ∀ n ∈ m.occurrences, ∀ s, n.span = some s → s.IsValid src)
include hspans

theorem forall₂_locates {make : String → Reason → Outcome} {p : Node → Bool}
    {record? : Node → Option Record} (hp : ∀ n, p n = (record? n).isSome)
    (hmade : ∀ n r, record? n = some r →
      outcome? src n = some (make r.key r.reason) ∧ r.file = label ∧ r.line = src.line? n.span)
    (hkey : ∀ n key reason, Verdict src n (make key reason) → reason.quotesSource = true →
      key = src.snippet n.span) :
    List.Forall₂ (fun n r => Verdict src n (make r.key r.reason) ∧ r.Locates src n)
      (m.occurrences.filter p) (m.occurrences.filterMap record?) := by
  apply forall₂_filter_filterMap hp
  intro n hn r hr
  obtain ⟨key, reason, file, line⟩ := r
  obtain ⟨houtcome, rfl, rfl⟩ := hmade n _ hr
  have hverdict := outcome?_eq_some_iff.1 houtcome
  exact ⟨hverdict, Record.locates (hspans n hn) (hkey n key reason hverdict) _⟩

theorem errors_locate :
    List.Forall₂ (fun n r => Verdict src n (.rejected r.key r.reason) ∧ r.Locates src n)
      (m.occurrences.filter fun n => (outcome? src n).any Outcome.isRejected)
      (Extraction.ofModule src label m).errors := by
  rw [Extraction.ofModule_eq_foldl, foldl_judge_eq_gathered, gathered]
  dsimp only
  rw [List.filterMap_map]
  apply forall₂_locates label hspans
  · intro n
    rcases h : outcome? src n with _ | key | ⟨key, reason⟩ | ⟨key, reason⟩ <;>
      simp [h, Outcome.isRejected]
  · intro n r hr
    rcases h : outcome? src n with _ | key | ⟨key, reason⟩ | ⟨key, reason⟩ <;>
      simp [h] at hr
    subst hr
    exact ⟨rfl, rfl, rfl⟩
  · intro n key reason hverdict
    exact hverdict.key_of_quotesSource

theorem warnings_locate :
    List.Forall₂ (fun n r => Verdict src n (.warned r.key r.reason) ∧ r.Locates src n)
      (m.occurrences.filter fun n => (outcome? src n).any Outcome.isWarned)
      (Extraction.ofModule src label m).warnings := by
  rw [Extraction.ofModule_eq_foldl, foldl_judge_eq_gathered, gathered]
  dsimp only
  rw [List.filterMap_map]
  apply forall₂_locates label hspans
  · intro n
    rcases h : outcome? src n with _ | key | ⟨key, reason⟩ | ⟨key, reason⟩ <;>
      simp [h, Outcome.isWarned]
  · intro n r hr
    rcases h : outcome? src n with _ | key | ⟨key, reason⟩ | ⟨key, reason⟩ <;>
      simp [h] at hr
    subst hr
    exact ⟨rfl, rfl, rfl⟩
  · intro n key reason hverdict hq
    rw [hverdict.reason_of_warned] at hq
    cases hq

end Records

/-- A byte order mark at the start of a text is not part of the source. -/
theorem Text.Source.toList_eq_chars (text : String) :
    text.toList = '\uFEFF' :: (Source.ofString text).chars ∨
      text.toList.head? ≠ some '\uFEFF' ∧ text.toList = (Source.ofString text).chars := by
  unfold Source.ofString
  split
  next cs h => exact .inl h
  next hne =>
    refine .inr ⟨fun h => ?_, rfl⟩
    obtain ⟨cs, hcs⟩ := List.head?_eq_some_iff.1 h
    exact hne cs hcs

/-- The records of a module belong one by one, in order, to the calls and elements that are rejected
or accepted with a warning. Each gives the line on which its node starts, and quotes exactly the
bytes of its node where its reason is that there is no key to give. -/
theorem records_locate (text label : String) (m : Module)
    (hspans : ∀ n ∈ m.occurrences, ∀ s, n.span = some s → s.IsValid (.ofString text)) :
    let src := Source.ofString text
    let e := Extraction.ofModule src label m
    (text.toList = '\uFEFF' :: src.chars ∨
      text.toList.head? ≠ some '\uFEFF' ∧ text.toList = src.chars) ∧
    List.Forall₂ (fun n r => Verdict src n (.rejected r.key r.reason) ∧ r.Locates src n)
      (m.occurrences.filter fun n => (outcome? src n).any Outcome.isRejected) e.errors ∧
    List.Forall₂ (fun n r => Verdict src n (.warned r.key r.reason) ∧ r.Locates src n)
      (m.occurrences.filter fun n => (outcome? src n).any Outcome.isWarned) e.warnings ∧
    ∀ s t : Span, s.start ≤ t.start →
      ∃ i j, src.line? (some s) = some i ∧ src.line? (some t) = some j ∧ i ≤ j := by
  intro src e
  refine ⟨Source.toList_eq_chars text, errors_locate label hspans, warnings_locate label hspans, ?_⟩
  intro s t h
  exact ⟨_, _, rfl, rfl, src.lineAt_mono h⟩

/-- A call after a byte order mark, a letter of two bytes and a break of two characters, and an
element that was not read from the text. -/
def markedText : String := "\uFEFFé\r\nt(ü);"

def markedCall : Node := .call (some ⟨4, 9⟩) (.identifier none "t") [.identifier none "ü"]

def markedElement : Node := .element none (.plain "Trans") [] []

theorem records_locate_markedText :
    (∀ n ∈ [markedCall, markedElement], ∀ s, n.span = some s → s.IsValid (.ofString markedText)) ∧
      ∃ call element,
        (Extraction.ofModule (.ofString markedText) "a.ts" ⟨[markedCall, markedElement]⟩).errors =
          [call, element] ∧
        utf8Bytes call.key = utf8Bytes "t(ü)" ∧ call.line = some 2 ∧
        element.key = "" ∧ element.line = none := by
  have hchars : (Source.ofString markedText).chars = "é\r\n".toList ++ "t(ü);".toList ∧
      (Source.ofString markedText).chars = "é\r\nt(ü)".toList ++ ";".toList := by decide
  have hspans : ∀ n ∈ [markedCall, markedElement], ∀ s, n.span = some s →
      s.IsValid (.ofString markedText) := by
    intro n hn s hs
    rcases List.mem_pair.1 hn with rfl | rfl
    · cases hs
      exact ⟨by decide, ⟨_, _, hchars.1, by decide⟩, ⟨_, _, hchars.2, by decide⟩⟩
    · cases hs
  refine ⟨hspans, ?_⟩
  have herrors := (records_locate markedText "a.ts" ⟨[markedCall, markedElement]⟩ hspans).2.1
  generalize (Extraction.ofModule (.ofString markedText) "a.ts"
    ⟨[markedCall, markedElement]⟩).errors = errors at herrors ⊢
  cases herrors with
  | @cons _ call _ _ hcall hrest =>
    cases hrest with
    | @cons _ element _ _ helement hnone =>
      cases hnone
      have hcallReason : call.reason = .unsupportedArgument :=
        Option.some.inj ((congrArg (Option.bind · Outcome.reason?)
          (outcome?_eq_some_iff.2 hcall.1)).symm.trans (by decide))
      have helementReason : element.reason = .missingKeyOrComplexChildren :=
        Option.some.inj ((congrArg (Option.bind · Outcome.reason?)
          (outcome?_eq_some_iff.2 helement.1)).symm.trans (by decide))
      have hline : 1 + (Source.ofString markedText).breaksUpTo 4 = 2 := by decide
      refine ⟨call, element, rfl, ?_, ?_, ?_, ?_⟩
      · rw [hcall.2.quote ⟨4, 9⟩ rfl (by rw [hcallReason]; rfl)]
        decide
      · rw [hcall.2.line ⟨4, 9⟩ rfl (by decide), hline]
      · exact (helement.2.absent rfl).2 (by rw [helementReason]; rfl)
      · exact (helement.2.absent rfl).1

end MessageKeys

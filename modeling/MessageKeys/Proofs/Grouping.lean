import MessageKeys.Proofs.Traversal

namespace MessageKeys

open Syntax (Node Module)
open Text (Source)

namespace Syntax.Node

mutual

/-- A node without the parentheses that group what is in it. Its own are kept if it stands for the
object of a member access, or for what is no expression: a plain name, an attribute with its value
or a child of an element. -/
def ungroup (kept : Bool) : Node → Node
  | string s value => string s value
  | template s segments holes => template s segments (ungroupAll false holes)
  | identifier s name => identifier s name
  | privateName s name => privateName s name
  | paren s inner => if kept then paren s (ungroup true inner) else ungroup false inner
  | member s object property computed =>
    member s (ungroup true object) (ungroup (!computed) property) computed
  | call s callee arguments => call s (ungroup false callee) (ungroupAll false arguments)
  | spread s inner => spread s (ungroup false inner)
  | element s name attributes children =>
    element s name (ungroupAll true attributes) (ungroupAll true children)
  | attr s name value => attr s name (ungroupValue value)
  | text s value => text s value
  | form s kind parts => form s kind (ungroupParts (kind = .optionalMember) parts)

def ungroupValue : Option Node → Option Node
  | none => none
  | some value => some (ungroup true value)

def ungroupAll (kept : Bool) : List Node → List Node
  | [] => []
  | n :: ns => ungroup kept n :: ungroupAll kept ns

/-- The parts of a form, of which the first may be an object. -/
def ungroupParts (object : Bool) : List Node → List Node
  | [] => []
  | n :: ns => ungroup object n :: ungroupAll false ns

end

/-- The parts that are expressions of their own, where parentheses only group. -/
def freeParts : Node → List Node
  | template _ _ holes => holes
  | member _ _ property true => [property]
  | call _ callee arguments => callee :: arguments
  | spread _ inner => [inner]
  | form _ kind parts => if kind = .optionalMember then parts.tail else parts
  | _ => []

theorem ungroupAll_eq_map (kept : Bool) (ns : List Node) :
    ungroupAll kept ns = ns.map (ungroup kept) := by
  induction ns with
  | nil => rfl
  | cons n ns ih => rw [ungroupAll, ih, List.map_cons]

theorem not_isParen_ungroup (n : Node) : ¬IsParen (n.ungroup false) := by
  induction n using parts_induction with
  | step n ih =>
    cases n with
    | paren s inner => exact ih inner List.mem_cons_self
    | _ =>
      rintro ⟨s, inner, h⟩
      cases h

theorem stripParens_ungroup (kept : Bool) (n : Node) :
    (n.ungroup kept).stripParens = n.stripParens.ungroup false := by
  induction n using parts_induction generalizing kept with
  | step n ih =>
    cases n with
    | paren s inner =>
      have hinner := ih inner List.mem_cons_self
      cases kept
      · exact hinner false
      · exact hinner true
    | _ => rfl

/-- The calls and elements of a tree stay, each with what is in it ungrouped. -/
theorem occurrences_ungroup (kept : Bool) (n : Node) :
    (n.ungroup kept).occurrences = n.occurrences.map (ungroup false) := by
  induction n using parts_induction generalizing kept with
  | step n ih =>
    have hparts (kept : Bool) (ns : List Node) (hns : ns ⊆ n.parts) :
        occurrencesIn (ungroupAll kept ns) = (occurrencesIn ns).map (ungroup false) := by
      rw [ungroupAll_eq_map, occurrencesIn_eq_flatMap, occurrencesIn_eq_flatMap, List.flatMap_map,
        List.map_flatMap]
      exact List.flatMap_congr fun p hp => ih p (hns hp) kept
    cases n with
    | string s value | identifier s name | privateName s name | text s value => rfl
    | template s segments holes => exact hparts false holes (List.Subset.refl holes)
    | paren s inner =>
      have hinner := ih inner List.mem_cons_self
      cases kept
      · exact hinner false
      · exact hinner true
    | spread s inner => exact ih inner List.mem_cons_self false
    | member s object property computed =>
      have hobject := ih object List.mem_cons_self true
      have hproperty := ih property (List.mem_cons_of_mem _ List.mem_cons_self) (!computed)
      rw [ungroup, occurrences, hobject, hproperty, occurrences, List.map_append]
    | call s callee arguments =>
      have hcallee := ih callee List.mem_cons_self false
      have harguments := hparts false arguments (List.subset_cons_self _ _)
      rw [ungroup, occurrences, hcallee, harguments, occurrences, List.map_cons, List.map_append,
        ungroup]
    | element s name attributes children =>
      have hattributes := hparts true attributes (List.subset_append_left _ _)
      have hchildren := hparts true children (List.subset_append_right _ _)
      rw [ungroup, occurrences, hattributes, hchildren, occurrences, List.map_cons,
        List.map_append, ungroup]
    | attr s name value =>
      cases value with
      | none => rfl
      | some value => exact ih value List.mem_cons_self true
    | form s kind parts =>
      cases parts with
      | nil => rfl
      | cons first rest =>
        have hfirst := ih first List.mem_cons_self (kind = .optionalMember)
        have hrest := hparts false rest (List.subset_cons_self _ _)
        rw [ungroup, ungroupParts, occurrences, occurrencesIn, hfirst, hrest, occurrences,
          occurrencesIn, List.map_append]

theorem exists_of_mem_ungroupAll {kept : Bool} {ns : List Node} {q : Node}
    (h : q ∈ ungroupAll kept ns) : ∃ p ∈ ns, q = p.ungroup kept := by
  rw [ungroupAll_eq_map] at h
  obtain ⟨p, hp, hq⟩ := List.mem_map.1 h
  exact ⟨p, hp, hq.symm⟩

theorem exists_of_mem_parts_ungroup {kept : Bool} {n q : Node} (hn : ¬IsParen n)
    (h : q ∈ (n.ungroup kept).parts) : ∃ p ∈ n.parts, ∃ kept, q = p.ungroup kept := by
  cases n with
  | string s value | identifier s name | privateName s name | text s value => cases h
  | paren s inner => exact absurd ⟨s, inner, rfl⟩ hn
  | template s segments holes =>
    obtain ⟨p, hp, hq⟩ := exists_of_mem_ungroupAll h
    exact ⟨p, hp, false, hq⟩
  | spread s inner => exact ⟨inner, List.mem_cons_self, false, List.mem_singleton.1 h⟩
  | member s object property computed =>
    rcases List.mem_pair.1 h with hq | hq
    · exact ⟨object, List.mem_cons_self, true, hq⟩
    · exact ⟨property, List.mem_cons_of_mem _ List.mem_cons_self, !computed, hq⟩
  | call s callee arguments =>
    rcases List.mem_cons.1 h with hq | h
    · exact ⟨callee, List.mem_cons_self, false, hq⟩
    · obtain ⟨p, hp, hq⟩ := exists_of_mem_ungroupAll h
      exact ⟨p, List.mem_cons_of_mem _ hp, false, hq⟩
  | element s name attributes children =>
    rcases List.mem_append.1 h with h | h
    · obtain ⟨p, hp, hq⟩ := exists_of_mem_ungroupAll h
      exact ⟨p, List.mem_append_left _ hp, true, hq⟩
    · obtain ⟨p, hp, hq⟩ := exists_of_mem_ungroupAll h
      exact ⟨p, List.mem_append_right _ hp, true, hq⟩
  | attr s name value =>
    cases value with
    | none => cases h
    | some value => exact ⟨value, List.mem_cons_self, true, List.mem_singleton.1 h⟩
  | form s kind parts =>
    cases parts with
    | nil => cases h
    | cons first rest =>
      rcases List.mem_cons.1 h with hq | h
      · exact ⟨first, List.mem_cons_self, _, hq⟩
      · obtain ⟨p, hp, hq⟩ := exists_of_mem_ungroupAll h
        exact ⟨p, List.mem_cons_of_mem _ hp, false, hq⟩

theorem exists_of_mem_freeParts_ungroup {kept : Bool} {n q : Node} (hn : ¬IsParen n)
    (h : q ∈ (n.ungroup kept).freeParts) : ∃ p : Node, q = p.ungroup false := by
  have hall {ns : List Node} (h : q ∈ ungroupAll false ns) : ∃ p : Node, q = p.ungroup false := by
    obtain ⟨p, -, hq⟩ := exists_of_mem_ungroupAll h
    exact ⟨p, hq⟩
  cases n with
  | paren s inner => exact absurd ⟨s, inner, rfl⟩ hn
  | template s segments holes => exact hall h
  | spread s inner => exact ⟨inner, List.mem_singleton.1 h⟩
  | member s object property computed =>
    cases computed with
    | false => cases h
    | true => exact ⟨property, List.mem_singleton.1 h⟩
  | call s callee arguments =>
    rcases List.mem_cons.1 h with hq | h
    · exact ⟨callee, hq⟩
    · exact hall h
  | form s kind parts =>
    cases parts with
    | nil => simp [ungroup, ungroupParts, freeParts] at h
    | cons first rest =>
      rw [ungroup, ungroupParts, freeParts] at h
      split at h
      · exact hall h
      next hkind =>
        rcases List.mem_cons.1 h with hq | h
        · exact ⟨first, by rwa [decide_eq_false hkind] at hq⟩
        · exact hall h
  | _ => cases h

theorem not_isParen_of_mem_freeParts {kept : Bool} {n x p : Node}
    (hx : x ∈ (n.ungroup kept).preorder) (hp : p ∈ x.freeParts) : ¬IsParen p := by
  induction n using parts_induction generalizing kept with
  | step n ih =>
    by_cases hn : IsParen n
    · obtain ⟨s, inner, rfl⟩ := hn
      have hinner : ∀ {kept}, x ∈ (inner.ungroup kept).preorder → ¬IsParen p :=
        ih inner List.mem_cons_self
      cases kept with
      | false => exact hinner hx
      | true =>
        rw [ungroup, if_pos rfl, preorder_eq] at hx
        rcases List.mem_cons.1 hx with rfl | hx
        · cases hp
        · exact hinner (by simpa [parts] using hx)
    · rw [preorder_eq] at hx
      rcases List.mem_cons.1 hx with rfl | hx
      · obtain ⟨q, rfl⟩ := exists_of_mem_freeParts_ungroup hn hp
        exact not_isParen_ungroup q
      · obtain ⟨q, hq, hx⟩ := List.mem_flatMap.1 hx
        obtain ⟨part, hpart, kept', rfl⟩ := exists_of_mem_parts_ungroup hn hq
        exact ih part hpart hx

end Syntax.Node

theorem not_isParen_stripParens (n : Node) : ¬IsParen n.stripParens := (stripParens_eq_iff.1 rfl).2

theorem isTranslationCallee_computed (s : Option Text.Span) (object property : Node) :
    isTranslationCallee (.member s object property true) = false := by
  cases object with
  | identifier s₁ name => cases property <;> rfl
  | _ => rfl

/-- A member access that is not computed has a plain name, which is never ungrouped. -/
theorem isTranslationCallee_ungroup (callee : Node) :
    isTranslationCallee (callee.ungroup false) = isTranslationCallee callee := by
  have hcore := not_isParen_stripParens callee
  rw [isTranslationCallee, Node.stripParens_ungroup, isTranslationCallee]
  cases h : callee.stripParens with
  | paren s inner => exact absurd ⟨s, inner, h⟩ hcore
  | member s object property computed =>
    cases computed with
    | false =>
      cases object with
      | identifier s₁ name => cases property <;> rfl
      | _ => rfl
    | true =>
      exact (isTranslationCallee_computed s _ _).trans (isTranslationCallee_computed s _ _).symm
  | _ => rfl

theorem argumentOutcome_ungroup (snippet : String) (argument : Node) :
    argumentOutcome snippet (argument.ungroup false) = argumentOutcome snippet argument := by
  have hcore := not_isParen_stripParens argument
  rw [argumentOutcome, Node.stripParens_ungroup, argumentOutcome]
  cases h : argument.stripParens with
  | paren s inner => exact absurd ⟨s, inner, h⟩ hcore
  | template s segments holes => cases holes <;> rfl
  | _ => rfl

theorem callOutcome?_ungroup (snippet : String) (callee : Node) (arguments : List Node) :
    callOutcome? snippet (callee.ungroup false) (Node.ungroupAll false arguments) =
      callOutcome? snippet callee arguments := by
  rw [callOutcome?, isTranslationCallee_ungroup, callOutcome?]
  cases arguments with
  | nil => rfl
  | cons argument rest =>
    rw [Node.ungroupAll, List.head?_cons, Option.map_some, argumentOutcome_ungroup]
    rfl

theorem explicitKey?_ungroup (attributes : List Node) :
    explicitKey? (Node.ungroupAll true attributes) = explicitKey? attributes := by
  induction attributes with
  | nil => rfl
  | cons first rest ih =>
    cases first with
    | attr s name value =>
      rw [Node.ungroupAll, Node.ungroup]
      cases hname : name == Syntax.MarkupName.plain "i18nKey" with
      | true =>
        simp only [explicitKey?, List.find?_cons, hname]
        cases value with
        | none => rfl
        | some value => cases value <;> rfl
      | false =>
        simp only [explicitKey?, List.find?_cons, hname]
        exact ih
    | _ => exact ih

theorem simpleText?_ungroup (children : List Node) :
    simpleText? (Node.ungroupAll true children) = simpleText? children := by
  rcases children with _ | ⟨child, _ | ⟨next, rest⟩⟩
  · rfl
  · cases child <;> rfl
  · cases child <;> rfl

theorem transOutcome_ungroup (snippet : String) (attributes children : List Node) :
    transOutcome snippet (Node.ungroupAll true attributes) (Node.ungroupAll true children) =
      transOutcome snippet attributes children := by
  have hempty : (Node.ungroupAll true children).isEmpty = children.isEmpty := by
    cases children <;> rfl
  rw [transOutcome, explicitKey?_ungroup, simpleText?_ungroup, hempty, transOutcome]

theorem outcome?_element_of_ne (src : Source) (s : Option Text.Span) {name : Syntax.MarkupName}
    (h : name ≠ .plain "Trans") (attributes children : List Node) :
    outcome? src (.element s name attributes children) = none := by
  rw [outcome?]
  · intro s' callee arguments heq
    cases heq
  · intro s' attributes' children' heq
    exact h (Node.element.inj heq).2.1

theorem outcome?_ungroup (src : Source) {n : Node} (h : n.isOccurrence = true) :
    outcome? src (n.ungroup false) = outcome? src n := by
  cases n with
  | call s callee arguments => exact callOutcome?_ungroup (src.snippet s) callee arguments
  | element s name attributes children =>
    by_cases hname : name = .plain "Trans"
    · subst hname
      exact congrArg some (transOutcome_ungroup (src.snippet s) attributes children)
    · rw [Node.ungroup, outcome?_element_of_ne src s hname, outcome?_element_of_ne src s hname]
  | _ => cases h

theorem span_ungroup {n : Node} (h : n.isOccurrence = true) : (n.ungroup false).span = n.span := by
  cases n with
  | call s callee arguments => rfl
  | element s name attributes children => rfl
  | _ => cases h

def Syntax.Module.ungrouped (m : Module) : Module := ⟨Node.ungroupAll false m.items⟩

theorem Syntax.Module.occurrences_ungrouped (m : Module) :
    m.ungrouped.occurrences = m.occurrences.map (Node.ungroup false) := by
  rw [ungrouped, occurrences, occurrences, Node.occurrencesIn_eq_flatMap, Node.ungroupAll_eq_map,
    Node.occurrencesIn_eq_flatMap, List.flatMap_map, List.map_flatMap]
  exact List.flatMap_congr fun n _ => n.occurrences_ungroup false

theorem Extraction.judge_ungroup (src : Source) (file : String) (e : Extraction) {n : Node}
    (h : n.isOccurrence = true) : e.judge src file (n.ungroup false) = e.judge src file n := by
  rw [judge, outcome?_ungroup src h, span_ungroup h, judge]

/-- Without the parentheses that group, a module yields the same keys and the same records. None
of them are left. -/
theorem ofModule_ungrouped (src : Source) (file : String) (m : Module) :
    Extraction.ofModule src file m.ungrouped = Extraction.ofModule src file m ∧
    (∀ n ∈ m.ungrouped.items, ¬IsParen n) ∧
    ∀ n ∈ m.ungrouped.items.flatMap Node.preorder, ∀ p ∈ n.freeParts, ¬IsParen p := by
  refine ⟨?_, ?_, ?_⟩
  · rw [Extraction.ofModule_eq_foldl, Extraction.ofModule_eq_foldl, Module.occurrences_ungrouped,
      List.foldl_map]
    apply List.foldl_ext
    intro e n hn
    exact e.judge_ungroup src file (Module.mem_occurrences_iff.1 hn).1
  · intro n hn
    obtain ⟨item, -, rfl⟩ := Node.exists_of_mem_ungroupAll hn
    exact item.not_isParen_ungroup
  · intro n hn p hp
    obtain ⟨item, hitem, hn⟩ := List.mem_flatMap.1 hn
    obtain ⟨item', -, rfl⟩ := Node.exists_of_mem_ungroupAll hitem
    exact Node.not_isParen_of_mem_freeParts hn hp

/-- In parentheses, the object of a member access is not taken for the bare name. -/
example :
    isTranslationCallee (.member none (.paren none (.identifier none "i18next"))
      (.identifier none "t") false) = false ∧
    isTranslationCallee (.member none (.identifier none "i18next")
      (.identifier none "t") false) = true := by
  decide

end MessageKeys

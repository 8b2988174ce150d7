import Mathlib.Logic.Relation
import MessageKeys.Keys.Extraction
import MessageKeys.Proofs.StringOrder
import MessageKeys.Proofs.Verdict

namespace MessageKeys

open Syntax (Node Module)
open Text (Source)

namespace Syntax.Node

theorem sizeOf_lt_of_mem_parts {n p : Node} (h : p ∈ n.parts) : sizeOf p < sizeOf n := by
  cases n with
  | string s v | identifier s v | privateName s v | text s v => cases h
  | template s segments holes =>
    have hs : sizeOf p < sizeOf holes := List.sizeOf_lt_of_mem h
    simp only [template.sizeOf_spec]
    omega
  | paren s m | spread s m =>
    cases List.mem_singleton.1 h
    simp
  | member s object property computed =>
    rcases List.mem_pair.1 h with rfl | rfl <;> simp only [member.sizeOf_spec] <;> omega
  | call s callee arguments =>
    rcases List.mem_cons.1 h with rfl | h
    · simp only [call.sizeOf_spec]
      omega
    · have hs := List.sizeOf_lt_of_mem h
      simp only [call.sizeOf_spec]
      omega
  | element s name attributes children =>
    rcases List.mem_append.1 h with h | h <;>
      · have hs := List.sizeOf_lt_of_mem h
        simp only [element.sizeOf_spec]
        omega
  | attr s name value =>
    cases value with
    | none => cases h
    | some v =>
      cases List.mem_singleton.1 h
      simp only [attr.sizeOf_spec, Option.some.sizeOf_spec]
      omega
  | form s kind parts =>
    have hs : sizeOf p < sizeOf parts := List.sizeOf_lt_of_mem h
    simp only [form.sizeOf_spec]
    omega

/-- A node and all that is inside it, each node before its parts. -/
def preorder (n : Node) : List Node :=
  n :: n.parts.attach.flatMap fun p => preorder p.1
termination_by sizeOf n
decreasing_by exact sizeOf_lt_of_mem_parts p.2

theorem preorder_eq (n : Node) : n.preorder = n :: n.parts.flatMap preorder := by
  rw [preorder, List.flatMap_subtype (g := preorder) (fun _ _ => rfl), List.unattach_attach]

theorem parts_induction {motive : Node → Prop}
    (step : ∀ n, (∀ p ∈ n.parts, motive p) → motive n) (n : Node) : motive n :=
  step n fun p _ => parts_induction step p
termination_by sizeOf n
decreasing_by exact sizeOf_lt_of_mem_parts ‹_›

theorem mem_preorder_iff {n x : Node} :
    x ∈ n.preorder ↔ Relation.ReflTransGen (fun a b => b ∈ a.parts) n x := by
  induction n using parts_induction with
  | step n ih =>
    rw [preorder_eq, List.mem_cons, List.mem_flatMap, Relation.ReflTransGen.cases_head_iff, eq_comm]
    refine or_congr_right (exists_congr fun p => and_congr_right fun hp => ih p hp)

/-- Calls and markup elements. Calls in optional chains, constructions and tagged templates are
forms, so they do not count, but what is inside them does. -/
def isOccurrence : Node → Bool
  | call .. | element .. => true
  | _ => false

theorem occurrencesIn_eq_flatMap (ns : List Node) : occurrencesIn ns = ns.flatMap occurrences := by
  induction ns with
  | nil => rfl
  | cons n ns ih => rw [occurrencesIn, ih, List.flatMap_cons]

theorem occurrences_eq (n : Node) :
    n.occurrences = [n].filter isOccurrence ++ n.parts.flatMap occurrences := by
  cases n with
  | attr s name value => cases value <;> simp [occurrences, isOccurrence, parts]
  | call s callee arguments =>
    rw [occurrences, occurrencesIn_eq_flatMap, List.filter_cons_of_pos rfl]
    rfl
  | element s name attributes children =>
    rw [occurrences, occurrencesIn_eq_flatMap, occurrencesIn_eq_flatMap, ← List.flatMap_append,
      List.filter_cons_of_pos rfl]
    rfl
  -- The others are no occurrences, and all that they hold are their parts.
  | _ => simp [occurrences, isOccurrence, parts, occurrencesIn_eq_flatMap]

theorem occurrences_eq_filter_preorder (n : Node) :
    n.occurrences = n.preorder.filter isOccurrence := by
  induction n using parts_induction with
  | step n ih =>
    rw [occurrences_eq, preorder_eq, List.flatMap_congr ih, ← List.filter_flatMap,
      ← List.filter_append, List.singleton_append]

end Syntax.Node

theorem Syntax.Module.occurrences_eq (m : Module) :
    m.occurrences = (m.items.flatMap Node.preorder).filter Node.isOccurrence := by
  rw [Module.occurrences, Node.occurrencesIn_eq_flatMap, List.filter_flatMap]
  exact List.flatMap_congr fun n _ => n.occurrences_eq_filter_preorder

theorem Syntax.Module.mem_occurrences_iff {m : Module} {n : Node} :
    n ∈ m.occurrences ↔ n.isOccurrence = true ∧
      ∃ item ∈ m.items, Relation.ReflTransGen (fun a b => b ∈ a.parts) item n := by
  rw [Module.occurrences_eq, List.mem_filter, List.mem_flatMap, and_comm]
  simp only [Node.mem_preorder_iff]

namespace Extraction

variable (src : Source) (file : String)

theorem visitAll_eq_foldl (e : Extraction) (ns : List Node) :
    visitAll src file e ns = ns.foldl (visit src file) e := by
  induction ns generalizing e with
  | nil => rfl
  | cons n ns ih => rw [visitAll, ih, List.foldl_cons]

/-- One step of the walk: a node is judged, then its parts are visited in their order. -/
theorem visit_eq (e : Extraction) (n : Node) :
    visit src file e n = n.parts.foldl (visit src file) (e.judge src file n) := by
  cases n with
  | attr s name value => cases value <;> rfl
  | element s name attributes children =>
    rw [visit, visitAll_eq_foldl, visitAll_eq_foldl, Node.parts, List.foldl_append]
  | template s segments parts | call s callee parts | form s kind parts =>
    rw [visit, visitAll_eq_foldl]
    rfl
  | _ => rfl

theorem visit_eq_foldl_preorder (e : Extraction) (n : Node) :
    visit src file e n = n.preorder.foldl (judge src file) e := by
  induction n using Node.parts_induction generalizing e with
  | step n ih =>
    rw [visit_eq, Node.preorder_eq, List.foldl_cons, List.foldl_flatMap]
    exact List.foldl_ext _ _ _ fun e p hp => ih p hp e

theorem judge_of_not_isOccurrence (e : Extraction) {n : Node} (h : ¬n.isOccurrence = true) :
    e.judge src file n = e := by
  cases n with
  | call s callee arguments => exact absurd rfl h
  | element s name attributes children => exact absurd rfl h
  | _ => rfl

theorem ofModule_eq_foldl (m : Module) :
    ofModule src file m = m.occurrences.foldl (judge src file) empty := by
  have hwalk : ofModule src file m =
      (m.items.flatMap Node.preorder).foldl (judge src file) empty := by
    rw [ofModule, visitAll_eq_foldl, List.foldl_flatMap]
    exact List.foldl_ext _ _ _ fun e n _ => visit_eq_foldl_preorder src file e n
  -- The walk judges all nodes, but judging one that is no occurrence changes nothing.
  rw [hwalk, Module.occurrences_eq, List.foldl_filter]
  refine List.foldl_ext _ _ _ fun e n _ => ?_
  split
  · rfl
  next h => exact judge_of_not_isOccurrence src file e h

end Extraction

/-- Exactly the verdict that the tables give for a node, or none if they give none. -/
def Judged (src : Source) (n : Node) (verdict : Option Outcome) : Prop :=
  ∀ o, verdict = some o ↔ Verdict src n o

theorem judged_iff {src : Source} {n : Node} {verdict : Option Outcome} :
    Judged src n verdict ↔ outcome? src n = verdict := by
  simp only [Judged, ← outcome?_eq_some_iff]
  exact ⟨fun h => Option.ext fun o => (h o).symm, fun h o => h ▸ Iff.rfl⟩

/-- What verdicts on nodes come to: the keys that are accepted, with or without a warning, and a
record for each warning and each rejection. -/
def gathered (src : Source) (label : String) (found : List (Node × Option Outcome)) :
    Extraction where
  keys := .ofList (found.filterMap fun
    | (_, some (.accepted key)) | (_, some (.warned key _)) => some key
    | _ => none)
  warnings := found.filterMap fun
    | (n, some (.warned key reason)) => some ⟨key, reason, label, src.line? n.span⟩
    | _ => none
  errors := found.filterMap fun
    | (n, some (.rejected key reason)) => some ⟨key, reason, label, src.line? n.span⟩
    | _ => none

theorem gathered_append_judged (src : Source) (label : String)
    (found : List (Node × Option Outcome)) (n : Node) :
    gathered src label (found ++ [(n, outcome? src n)]) =
      (gathered src label found).judge src label n := by
  rw [Extraction.judge]
  rcases outcome? src n with _ | key | ⟨key, reason⟩ | ⟨key, reason⟩ <;>
    simp [gathered, Extraction.add, StringSet.ofList_append, StringSet.insertAll]

theorem foldl_judge_eq_gathered (src : Source) (label : String) (ns : List Node) :
    ns.foldl (Extraction.judge src label) .empty =
      gathered src label (ns.map fun n => (n, outcome? src n)) := by
  -- From the back, because each node is judged on top of those before it.
  induction ns using List.reverseRecOn with
  | nil => rfl
  | append_singleton ns n ih =>
    rw [List.foldl_append, ih, List.map_append]
    exact (gathered_append_judged src label _ n).symm

theorem Extraction.mem_ofModule_keys_iff {src : Source} {label : String} {m : Module} {k : String} :
    k ∈ (Extraction.ofModule src label m).keys ↔
      ∃ n ∈ m.occurrences, ∃ o, Verdict src n o ∧ o.acceptedKey? = some k := by
  rw [Extraction.ofModule_eq_foldl, foldl_judge_eq_gathered, gathered, StringSet.mem_ofList,
    List.mem_filterMap]
  simp only [List.mem_map, ← outcome?_eq_some_iff]
  constructor
  · rintro ⟨_, ⟨n, hn, rfl⟩, hk⟩
    cases ho : outcome? src n with
    | none => simp [ho] at hk
    | some o =>
      rw [ho] at hk
      exact ⟨n, hn, o, ho, by cases o <;> exact hk⟩
  · rintro ⟨n, hn, o, ho, hk⟩
    refine ⟨_, ⟨n, hn, rfl⟩, ?_⟩
    rw [ho]
    cases o <;> exact hk

/-- What a module yields is gathered from its calls and elements. These are the ones at any depth
in the order of the tree; each has the one verdict that the tables give for it. -/
theorem ofModule_eq_gathered (src : Source) (label : String) (m : Module) :
    m.occurrences = (m.items.flatMap Node.preorder).filter Node.isOccurrence ∧
    (∀ n, n ∈ m.occurrences ↔ n.isOccurrence = true ∧
      ∃ item ∈ m.items, Relation.ReflTransGen (fun a b => b ∈ a.parts) item n) ∧
    ∃! verdicts : List (Option Outcome), List.Forall₂ (Judged src) m.occurrences verdicts ∧
      Extraction.ofModule src label m = gathered src label (m.occurrences.zip verdicts) := by
  refine ⟨m.occurrences_eq, fun n => Module.mem_occurrences_iff, ?_⟩
  have hmap := forall₂_iff_map_eq (r := Judged src) (fun _ _ => judged_iff) m.occurrences
  simp only [hmap]
  refine ⟨m.occurrences.map (outcome? src), ⟨rfl, ?_⟩, fun verdicts h => h.1.symm⟩
  rw [Extraction.ofModule_eq_foldl, foldl_judge_eq_gathered, List.map_prod_left_eq_zip]

end MessageKeys

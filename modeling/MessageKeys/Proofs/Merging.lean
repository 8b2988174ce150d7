import MessageKeys.Keys.Aggregate
import MessageKeys.Proofs.Traversal

namespace MessageKeys

open Syntax (Node Module)
open Text (Source)

/-- The only reason to accept a key with a warning is a template without holes. -/
theorem Verdict.reason_of_warned {src : Source} {n : Node} {key : String} {reason : Reason}
    (h : Verdict src n (.warned key reason)) : reason = .templateWithoutExpressions := by
  cases h with
  | call _ _ _ hargument =>
    cases hargument
    rfl
  | element helement => cases helement

theorem Verdict.reason_of_rejected {src : Source} {n : Node} {key : String} {reason : Reason}
    (h : Verdict src n (.rejected key reason)) : reason ≠ .templateWithoutExpressions := by
  cases h with
  | call _ _ _ hargument => cases hargument <;> decide
  | element helement => cases helement <;> decide

/-- Warnings are about accepted keys and errors about others. -/
structure Coherent (keys : StringSet) (warnings errors : List Record) : Prop where
  warned : ∀ r ∈ warnings, r.reason = .templateWithoutExpressions ∧ r.key ∈ keys
  rejected : ∀ r ∈ errors, r.reason ≠ .templateWithoutExpressions

namespace Coherent

theorem empty : Coherent ∅ [] [] := ⟨by simp, by simp⟩

variable {keys keys' : StringSet} {warnings warnings' errors errors' : List Record}

theorem mono (h : Coherent keys warnings errors) (hkeys : ∀ k ∈ keys, k ∈ keys') :
    Coherent keys' warnings errors where
  warned r hr := ⟨(h.warned r hr).1, hkeys _ (h.warned r hr).2⟩
  rejected := h.rejected

theorem append (h : Coherent keys warnings errors) (h' : Coherent keys warnings' errors') :
    Coherent keys (warnings ++ warnings') (errors ++ errors') where
  warned := List.forall_mem_append.2 ⟨h.warned, h'.warned⟩
  rejected := List.forall_mem_append.2 ⟨h.rejected, h'.rejected⟩

theorem union (h : Coherent keys warnings errors) (h' : Coherent keys' warnings' errors') :
    Coherent (keys.union keys') (warnings ++ warnings') (errors ++ errors') :=
  (h.mono fun _ hk => StringSet.mem_union.2 (.inl hk)).append
    (h'.mono fun _ hk => StringSet.mem_union.2 (.inr hk))

end Coherent

namespace Extraction

/-- A result in which each record fits the keys. -/
abbrev IsCoherent (e : Extraction) : Prop := Coherent e.keys e.warnings e.errors

/-- One step of the walk: the verdict on a node adds a record that fits. -/
theorem IsCoherent.judge {e : Extraction} (h : e.IsCoherent) (src : Source) (file : String)
    (n : Node) : (e.judge src file n).IsCoherent := by
  have hinsert (key : String) : ∀ k ∈ e.keys, k ∈ e.keys.insert key := fun k hk =>
    StringSet.mem_insert.2 (.inr hk)
  unfold Extraction.judge
  cases ho : outcome? src n with
  | none => exact h
  | some outcome =>
    have hverdict := outcome?_eq_some_iff.1 ho
    cases outcome with
    | accepted key => exact h.mono (hinsert key)
    | warned key reason =>
      have hreason := hverdict.reason_of_warned
      refine ⟨List.forall_mem_append.2 ⟨(h.mono (hinsert key)).warned, ?_⟩, h.rejected⟩
      exact List.forall_mem_singleton.2 ⟨hreason, StringSet.mem_insert.2 (.inl rfl)⟩
    | rejected key reason =>
      refine ⟨h.warned, List.forall_mem_append.2 ⟨h.rejected, ?_⟩⟩
      exact List.forall_mem_singleton.2 hverdict.reason_of_rejected

theorem isCoherent_ofModule (src : Source) (file : String) (m : Module) :
    (ofModule src file m).IsCoherent := by
  rw [ofModule_eq_foldl]
  exact List.foldlRecOn m.occurrences _ Coherent.empty fun e he n _ => he.judge src file n

end Extraction

theorem isCoherent_extract (text label : String) : (extract text label).IsCoherent := by
  unfold extract tryExtract
  dsimp only
  cases parseSource (.ofString text) label with
  | error failure => exact Coherent.empty
  | ok m => exact Extraction.isCoherent_ofModule _ label m

namespace Aggregate

/-- What so many merges can come to: the results of any texts, and any failures. -/
inductive Reached : Nat → Aggregate → Prop where
  | start : Reached 0 empty
  | merge {n : Nat} {a : Aggregate} (text label : String) :
    Reached n a → Reached (n + 1) (a.merge (extract text label))
  | mergeFailure {n : Nat} {a : Aggregate} (failure : Failure) :
    Reached n a → Reached (n + 1) (a.mergeFailure failure)

theorem Reached.coherent {n : Nat} {a : Aggregate} (h : Reached n a) :
    Coherent a.keys a.warnings a.errors := by
  induction h with
  | start => exact .empty
  | merge text label _ ih => exact ih.union (isCoherent_extract text label)
  | mergeFailure failure _ ih => exact ih

theorem Reached.filesChecked_eq {n : Nat} {a : Aggregate} (h : Reached n a) : a.filesChecked = n := by
  induction h with
  | start => rfl
  | merge text label _ ih => exact congrArg (· + 1) ih
  | mergeFailure failure _ ih => exact congrArg (· + 1) ih

theorem count_issues (a : Aggregate) (i : Issue) :
    a.issues.count i = match i with
      | .unreadable f => a.failures.count f
      | .warning r => a.warnings.count r
      | .error r => a.errors.count r := by
  have hother {α : Type} (xs : List α) (c : α → Issue) (hc : ∀ x, c x ≠ i) :
      (xs.map c).count i = 0 := by
    refine List.count_eq_zero.2 fun hmem => ?_
    obtain ⟨x, -, hx⟩ := List.mem_map.1 hmem
    exact hc x hx
  rw [issues, List.count_append, List.count_append]
  cases i with
  | unreadable f =>
    rw [hother a.warnings _ (by simp), hother a.errors _ (by simp)]
    exact List.count_map_of_injective _ _ (fun _ _ => Issue.unreadable.inj) f
  | warning r =>
    rw [hother a.failures _ (by simp), hother a.errors _ (by simp), Nat.zero_add]
    exact List.count_map_of_injective _ _ (fun _ _ => Issue.warning.inj) r
  | error r =>
    rw [hother a.failures _ (by simp), hother a.warnings _ (by simp), Nat.zero_add]
    exact List.count_map_of_injective _ _ (fun _ _ => Issue.error.inj) r

theorem length_issues (a : Aggregate) :
    a.issues.length = a.failures.length + a.warnings.length + a.errors.length := by
  simp only [issues, List.length_append, List.length_map]

theorem mem_newKeys {a : Aggregate} {existing : StringSet} {k : String} :
    k ∈ a.newKeys existing ↔ k ∈ a.keys ∧ k ∉ existing :=
  StringSet.mem_diff

/-- Whatever was merged, and in whatever order: every warning is about a template without holes whose
text was accepted as a key, and no error is; every merge counts as one file; every failure, warning
and error is listed as often as it was merged; and the new keys are the keys without the known ones,
in the order of their bytes. -/
theorem reached_invariants {n : Nat} {a : Aggregate} (h : Reached n a) :
    (∀ r ∈ a.warnings, r.reason = .templateWithoutExpressions ∧ r.key ∈ a.keys) ∧
      (∀ r ∈ a.errors, r.reason ≠ .templateWithoutExpressions) ∧
      a.filesChecked = n ∧
      (∀ f, a.issues.count (.unreadable f) = a.failures.count f) ∧
      (∀ r, a.issues.count (.warning r) = a.warnings.count r) ∧
      (∀ r, a.issues.count (.error r) = a.errors.count r) ∧
      a.issues.length = a.failures.length + a.warnings.length + a.errors.length ∧
      ∀ existing : StringSet,
        (a.newKeys existing).Pairwise (fun k l => utf8Bytes k < utf8Bytes l) ∧
          (∀ k ∈ a.newKeys existing, k ∉ existing) ∧
          ∀ k, k ∈ a.keys ↔ k ∈ a.newKeys existing ∨ k ∈ a.keys ∧ k ∈ existing := by
  refine ⟨h.coherent.warned, h.coherent.rejected, h.filesChecked_eq,
    fun f => a.count_issues (.unreadable f), fun r => a.count_issues (.warning r),
    fun r => a.count_issues (.error r), a.length_issues, fun existing => ⟨?_, ?_, ?_⟩⟩
  · exact StringSet.toList_utf8Bytes_sorted _
  · exact fun k hk => (mem_newKeys.1 hk).2
  · intro k
    rw [mem_newKeys, ← and_or_left, or_comm, and_iff_left (em _)]

def twoMerged : Aggregate :=
  (empty.merge (extract "t(`k`); t(x);" "a.ts")).mergeFailure ⟨"b.ts", none, "unreadable"⟩

theorem reached_invariants_twoMerged :
    twoMerged.warnings = [⟨"k", .templateWithoutExpressions, "a.ts", some 1⟩] ∧
      "k" ∈ twoMerged.keys ∧ twoMerged.filesChecked = 2 ∧ twoMerged.issues.length = 3 := by
  have hwarnings : twoMerged.warnings = [⟨"k", .templateWithoutExpressions, "a.ts", some 1⟩] := by
    decide +kernel
  have hreached : Reached 2 twoMerged := .mergeFailure _ (.merge _ _ .start)
  obtain ⟨hwarned, -, hchecked, -, -, -, hlength, -⟩ := reached_invariants hreached
  refine ⟨hwarnings, ?_, hchecked, ?_⟩
  · exact (hwarned ⟨"k", .templateWithoutExpressions, "a.ts", some 1⟩ (by rw [hwarnings]; simp)).2
  · rw [hlength, hwarnings]
    decide +kernel

end Aggregate

end MessageKeys

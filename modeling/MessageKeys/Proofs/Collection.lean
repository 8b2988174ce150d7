import Mathlib.Data.List.Sort
import MessageKeys.Project.Collect
import MessageKeys.Proofs.StringOrder

namespace MessageKeys

namespace Aggregate

def extractions (results : List (Except Failure Extraction)) : List Extraction :=
  results.filterMap Except.toOption

def failuresOf (results : List (Except Failure Extraction)) : List Failure :=
  results.filterMap fun
    | .ok _ => none
    | .error failure => some failure

section Cons

variable (results : List (Except Failure Extraction)) (e : Extraction) (f : Failure)

@[simp] theorem extractions_ok_cons : extractions (.ok e :: results) = e :: extractions results :=
  rfl

@[simp] theorem extractions_error_cons : extractions (.error f :: results) = extractions results :=
  rfl

@[simp] theorem failuresOf_ok_cons : failuresOf (.ok e :: results) = failuresOf results := rfl

@[simp] theorem failuresOf_error_cons :
    failuresOf (.error f :: results) = f :: failuresOf results := rfl

end Cons

theorem ofResults_append_singleton (results : List (Except Failure Extraction))
    (r : Except Failure Extraction) :
    ofResults (results ++ [r]) = (ofResults results).mergeResult r := by
  rw [ofResults, List.foldl_append]
  rfl

/-- Every field of the whole in terms of the results of the files. -/
theorem ofResults_eq (results : List (Except Failure Extraction)) :
    ofResults results =
      { keys := .ofList ((extractions results).flatMap (·.keys.toList))
        warnings := (extractions results).flatMap (·.warnings)
        errors := (extractions results).flatMap (·.errors)
        failures := failuresOf results
        filesChecked := results.length } := by
  -- From the back: the last result is merged into the whole of the others.
  induction results using List.reverseRecOn with
  | nil => rfl
  | append_singleton results r ih =>
    rw [ofResults_append_singleton, ih]
    cases r with
    | ok e =>
      simp [mergeResult, merge, extractions, failuresOf, Except.toOption, StringSet.union,
        StringSet.ofList_append]
    | error f =>
      simp [mergeResult, mergeFailure, extractions, failuresOf, Except.toOption,
        List.filterMap_cons]

end Aggregate

namespace Collect

theorem sortPaths_perm (paths : List String) : (sortPaths paths).Perm paths :=
  List.mergeSort_perm paths _

theorem sortPaths_sorted (paths : List String) : (sortPaths paths).Pairwise (· ≤ ·) := by
  have hle (a b : String) : (!decide (b < a)) = true ↔ a ≤ b := by
    rw [Bool.not_eq_true', decide_eq_false_iff_not, not_lt]
  refine (List.pairwise_mergeSort (fun a b c => ?_) (fun a b => ?_) paths).imp
    fun h => (hle _ _).1 h
  · simp only [hle]
    exact le_trans
  · rw [Bool.or_eq_true, hle, hle]
    exact le_total a b

theorem utf8Bytes_le_iff {a b : String} : utf8Bytes a ≤ utf8Bytes b ↔ a ≤ b := by
  rw [← not_lt, lt_iff_utf8Bytes_lt]
  rfl

theorem sortPaths_eq_of_perm {paths paths' : List String} (h : paths.Perm paths') :
    sortPaths paths = sortPaths paths' :=
  ((sortPaths_perm paths).trans (h.trans (sortPaths_perm paths').symm)).eq_of_pairwise
    (fun _ _ _ _ => le_antisymm) (sortPaths_sorted paths) (sortPaths_sorted paths')

theorem extractFiles_eq_of_perm (fs : FileSystem) {paths paths' : List String}
    (h : paths.Perm paths') : extractFiles fs paths = extractFiles fs paths' := by
  rw [extractFiles, sortPaths_eq_of_perm h, extractFiles]

section Workers

variable (fs : FileSystem) (paths : List String)

/-- The worker for the path at a position is done, and puts what the file yields into its slot. -/
def finishTask (slots : List (Option (Except Failure Extraction))) (i : Nat) :
    List (Option (Except Failure Extraction)) :=
  slots.set i (paths[i]?.map (extractFile fs))

/-- The slots after the workers were done in this order. All of them are empty at the start. -/
def runTasks (order : List Nat) : List (Option (Except Failure Extraction)) :=
  order.foldl (finishTask fs paths) (List.replicate paths.length none)

theorem length_runTasks (order : List Nat) :
    (runTasks fs paths order).length = paths.length := by
  induction order using List.reverseRecOn with
  | nil => rw [runTasks, List.foldl_nil, List.length_replicate]
  | append_singleton order i ih =>
    rw [runTasks, List.foldl_append, List.foldl_cons, List.foldl_nil, finishTask, List.length_set,
      ← runTasks, ih]

/-- A slot holds the result of its own file from when its worker is done. -/
theorem getElem?_runTasks (order : List Nat) {i : Nat} (hi : i < paths.length) :
    (runTasks fs paths order)[i]? =
      some (if i ∈ order then paths[i]?.map (extractFile fs) else none) := by
  induction order using List.reverseRecOn with
  | nil => simp [runTasks, hi]
  | append_singleton order j ih =>
    have hlen := length_runTasks fs paths order
    have hstep : runTasks fs paths (order ++ [j]) =
        finishTask fs paths (runTasks fs paths order) j := by
      rw [runTasks, List.foldl_append, ← runTasks]
      rfl
    -- The last worker changes its own slot only.
    rw [hstep, finishTask, List.getElem?_set, ih]
    by_cases hj : j = i
    · subst hj
      simp [hlen, hi]
    · simp [hj, Ne.symm hj]

theorem runTasks_eq_map_some {order : List Nat} (h : order.Perm (List.range paths.length)) :
    runTasks fs paths order = (paths.map (extractFile fs)).map some := by
  apply List.ext_getElem?
  intro i
  by_cases hi : i < paths.length
  · have hmem : i ∈ order := h.mem_iff.2 (List.mem_range.2 hi)
    simp [getElem?_runTasks fs paths order hi, hmem, hi]
  · have hlen := length_runTasks fs paths order
    rw [List.getElem?_eq_none (by omega), List.getElem?_eq_none (by simpa using hi)]

end Workers

/-- The file can be read, its text is a module, and this is what the module yields. -/
def Extracts (fs : FileSystem) (path : String) (e : Extraction) : Prop :=
  ∃ text m, fs.readText path = .ok text ∧ parseSource (.ofString text) path = .ok m ∧
    e = Extraction.ofModule (.ofString text) path m

theorem extractFile_eq_ok_iff {fs : FileSystem} {path : String} {e : Extraction} :
    extractFile fs path = .ok e ↔ Extracts fs path e := by
  unfold extractFile Extracts tryExtract
  cases hr : fs.readText path with
  | error err => simp
  | ok text =>
    dsimp only
    cases hp : parseSource (.ofString text) path with
    | error f => simp [hp]
    | ok m => simp [hp, eq_comm]

theorem file_of_parseSource_eq_error {src : Text.Source} {label : String} {f : Failure}
    (h : parseSource src label = .error f) : f.file = label := by
  unfold parseSource at h
  split at h
  · cases h
  · cases h
    rfl

theorem file_of_extractFile_eq_error {fs : FileSystem} {path : String} {f : Failure}
    (h : extractFile fs path = .error f) : f.file = path := by
  unfold extractFile tryExtract at h
  split at h
  · dsimp only at h
    split at h
    · cases h
    next hp =>
      cases h
      exact file_of_parseSource_eq_error hp
  · cases h
    rfl

section Fields

variable (fs : FileSystem)

/-- Can the file be read, and its text as a module? -/
def isUsable (path : String) : Bool := (extractFile fs path).isOk

theorem isUsable_of_ok {path : String} {e : Extraction} (h : extractFile fs path = .ok e) :
    isUsable fs path = true := by
  rw [isUsable, h]
  rfl

theorem isUsable_of_error {path : String} {f : Failure} (h : extractFile fs path = .error f) :
    isUsable fs path = false := by
  rw [isUsable, h]
  rfl

theorem isUsable_iff {path : String} : isUsable fs path = true ↔ ∃ e, Extracts fs path e := by
  simp only [← extractFile_eq_ok_iff]
  cases h : extractFile fs path with
  | ok e => simp [isUsable_of_ok fs h]
  | error f => simp [isUsable_of_error fs h]

theorem failuresOf_file (paths : List String) :
    (Aggregate.failuresOf (paths.map (extractFile fs))).map (·.file) =
      paths.filter (!isUsable fs ·) := by
  induction paths with
  | nil => rfl
  | cons path paths ih =>
    cases h : extractFile fs path with
    | ok e =>
      have hu := isUsable_of_ok fs h
      rw [List.map_cons, h, Aggregate.failuresOf_ok_cons, ih,
        List.filter_cons_of_neg (by simp [hu])]
    | error f =>
      have hu := isUsable_of_error fs h
      rw [List.map_cons, h, Aggregate.failuresOf_error_cons, List.map_cons, ih,
        List.filter_cons_of_pos (by simp [hu]), file_of_extractFile_eq_error h]

theorem extractions_forall₂ (paths : List String) :
    List.Forall₂ (Extracts fs) (paths.filter (isUsable fs))
      (Aggregate.extractions (paths.map (extractFile fs))) := by
  induction paths with
  | nil => exact .nil
  | cons path paths ih =>
    cases h : extractFile fs path with
    | ok e =>
      rw [List.map_cons, h, Aggregate.extractions_ok_cons,
        List.filter_cons_of_pos (isUsable_of_ok fs h)]
      exact .cons (extractFile_eq_ok_iff.1 h) ih
    | error f =>
      rw [List.map_cons, h, Aggregate.extractions_error_cons,
        List.filter_cons_of_neg (by simp [isUsable_of_error fs h])]
      exact ih

theorem extractions_filter_usable (paths : List String) :
    Aggregate.extractions ((paths.filter (isUsable fs)).map (extractFile fs)) =
      Aggregate.extractions (paths.map (extractFile fs)) := by
  -- Both lists are related to the usable paths, and each path has one result only.
  have h := extractions_forall₂ fs (paths.filter (isUsable fs))
  rw [List.filter_filter, List.filter_congr fun _ _ => Bool.and_self _] at h
  refine List.right_unique_forall₂' (fun _ _ _ h₁ h₂ => ?_) h (extractions_forall₂ fs paths)
  exact Except.ok.inj ((extractFile_eq_ok_iff.2 h₁).symm.trans (extractFile_eq_ok_iff.2 h₂))

theorem mem_extractions_iff {paths : List String} {e : Extraction} :
    e ∈ Aggregate.extractions (paths.map (extractFile fs)) ↔ ∃ p ∈ paths, Extracts fs p e := by
  simp only [Aggregate.extractions, List.mem_filterMap, List.mem_map, exists_exists_and_eq_and,
    ← extractFile_eq_ok_iff]
  refine exists_congr fun p => and_congr_right fun _ => ?_
  cases extractFile fs p <;> simp [Except.toOption]

theorem sortPaths_filter (p : String → Bool) (paths : List String) :
    sortPaths (paths.filter p) = (sortPaths paths).filter p :=
  ((sortPaths_perm _).trans ((sortPaths_perm paths).symm.filter p)).eq_of_pairwise
    (fun _ _ _ _ => le_antisymm) (sortPaths_sorted _) ((sortPaths_sorted paths).filter p)

theorem mem_extractFiles_keys_iff {paths : List String} {k : String} :
    k ∈ (extractFiles fs paths).keys ↔ ∃ p ∈ paths, ∃ e, Extracts fs p e ∧ k ∈ e.keys := by
  rw [extractFiles, Aggregate.ofResults_eq, StringSet.mem_ofList, List.mem_flatMap]
  simp only [mem_extractions_iff, (sortPaths_perm paths).mem_iff, StringSet.mem_toList]
  grind

end Fields

/-- The result for a list of paths is the same for every order of the list and every order in which
the workers are done. Files that cannot be read as modules leave a failure each and nothing else;
the others contribute in the byte order of their paths. -/
theorem extractFiles_order_independent (fs : FileSystem) (paths : List String) :
    let a := extractFiles fs paths
    let b := extractFiles fs (paths.filter (isUsable fs))
    ∃ sorted : List String,
      sorted.Perm paths ∧ sorted.Pairwise (fun p q => utf8Bytes p ≤ utf8Bytes q) ∧
      (∀ paths', paths'.Perm paths → extractFiles fs paths' = a ∧
        ∀ order, order.Perm (List.range paths'.length) →
          ∃ results, runTasks fs (sortPaths paths') order = results.map some ∧
            Aggregate.ofResults results = a) ∧
      (∀ p, isUsable fs p = true ↔ ∃ e, Extracts fs p e) ∧
      (∀ k, k ∈ a.keys ↔ ∃ p ∈ paths, ∃ e, Extracts fs p e ∧ k ∈ e.keys) ∧
      (∃ files, List.Forall₂ (Extracts fs) (sorted.filter (isUsable fs)) files ∧
        a.warnings = files.flatMap (·.warnings) ∧ a.errors = files.flatMap (·.errors)) ∧
      a.failures.map (·.file) = sorted.filter (!isUsable fs ·) ∧
      (b.keys = a.keys ∧ b.warnings = a.warnings ∧ b.errors = a.errors ∧ b.failures = []) ∧
      a.filesChecked = paths.length ∧
      a.filesChecked = paths.countP (isUsable fs) + a.failures.length := by
  intro a b
  have ha : a = Aggregate.ofResults ((sortPaths paths).map (extractFile fs)) := rfl
  have hb : b =
      Aggregate.ofResults (((sortPaths paths).filter (isUsable fs)).map (extractFile fs)) := by
    rw [← sortPaths_filter]
    rfl
  rw [Aggregate.ofResults_eq] at ha hb
  have hfile : a.failures.map (·.file) = (sortPaths paths).filter (!isUsable fs ·) := by
    rw [ha]
    exact failuresOf_file fs (sortPaths paths)
  have hchecked : a.filesChecked = paths.length := by
    rw [ha, List.length_map, (sortPaths_perm paths).length_eq]
  refine ⟨sortPaths paths, sortPaths_perm paths,
    (sortPaths_sorted paths).imp utf8Bytes_le_iff.2, fun paths' hp => ⟨?_, fun order ho => ?_⟩,
    fun p => isUsable_iff fs, fun k => mem_extractFiles_keys_iff fs,
    ⟨_, extractions_forall₂ fs (sortPaths paths), by rw [ha], by rw [ha]⟩, hfile,
    ⟨?_, ?_, ?_, ?_⟩, hchecked, ?_⟩
  · exact extractFiles_eq_of_perm fs hp
  · refine ⟨_, runTasks_eq_map_some fs _ ?_, ?_⟩
    · rwa [(sortPaths_perm paths').length_eq]
    · exact extractFiles_eq_of_perm fs hp
  · rw [ha, hb, extractions_filter_usable]
  · rw [ha, hb, extractions_filter_usable]
  · rw [ha, hb, extractions_filter_usable]
  · have hnil : ((sortPaths paths).filter (isUsable fs)).filter (!isUsable fs ·) = [] :=
      List.filter_eq_nil_iff.2 fun p hp => by simp [(List.mem_filter.1 hp).2]
    rw [hb]
    exact List.map_eq_nil_iff.1 ((failuresOf_file fs _).trans hnil)
  · have hlen : a.failures.length = paths.countP (!isUsable fs ·) := by
      rw [← List.length_map (f := Failure.file), hfile, ← List.countP_eq_length_filter,
        (sortPaths_perm paths).countP_eq]
    rw [hchecked, hlen, List.length_eq_countP_add_countP (isUsable fs)]
    simp

end Collect

end MessageKeys

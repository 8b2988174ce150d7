import MessageKeys.Proofs.IssueOrder
import MessageKeys.Proofs.Labels
import MessageKeys.Proofs.Totals

namespace MessageKeys

open Syntax (Node Module)
open Text (Source)

namespace Issue

/-- Does an issue stand on this line of this file? -/
def isAt (file : String) (line : Option Nat) (i : Issue) : Bool :=
  i.file == file && i.line == line

theorem isAt_iff {file : String} {line : Option Nat} {i : Issue} :
    isAt file line i = true ↔ i.file = file ∧ i.line = line := by
  rw [isAt, Bool.and_eq_true, beq_iff_eq, beq_iff_eq]

theorem sort_filter_isAt (issues : List Issue) (file : String) (line : Option Nat) :
    (sort issues).filter (isAt file line) = issues.filter (isAt file line) := by
  have hequal : (issues.filter (isAt file line)).Pairwise fun a b => le a b = true := by
    refine List.pairwise_of_forall_mem_list fun a ha b hb => ?_
    obtain ⟨hfile, hline⟩ := isAt_iff.1 (List.mem_filter.1 ha).2
    obtain ⟨hfile', hline'⟩ := isAt_iff.1 (List.mem_filter.1 hb).2
    rw [le_iff, hfile, hfile', hline, hline']
    exact .inr ⟨rfl, lineLE_refl line⟩
  have htrans (a b c : Issue) : le a b = true → le b c = true → le a c = true := le_trans
  have hsublist : (issues.filter (isAt file line)).Sublist (sort issues) :=
    List.sublist_mergeSort htrans le_or_le hequal List.filter_sublist
  have hfiltered := hsublist.filter (isAt file line)
  rw [List.filter_filter, List.filter_congr fun _ _ => Bool.and_self _] at hfiltered
  have hlength : ((sort issues).filter (isAt file line)).length =
      (issues.filter (isAt file line)).length :=
    ((List.mergeSort_perm issues le).filter _).length_eq
  exact (hfiltered.eq_of_length hlength.symm).symm

/-- The issue that a verdict gives rise to; `record` says where it was reached. -/
def ofOutcome? (record : String → Reason → Record) : Outcome → Option Issue
  | .accepted _ => none
  | .warned key reason => some (.warning (record key reason))
  | .rejected key reason => some (.error (record key reason))

end Issue

/-- The issues of a module, in the order in which the walk comes to its calls and elements. -/
def visitedIn (src : Source) (file : String) (m : Module) : List Issue :=
  m.occurrences.filterMap fun n =>
    (outcome? src n).bind (Issue.ofOutcome? fun key reason => ⟨key, reason, file, src.line? n.span⟩)

/-- The issues of a text in the order of the walk, if it can be read. -/
def visitedIssues (text file : String) : Except Failure (List Issue) :=
  (parseSource (.ofString text) file).map (visitedIn (.ofString text) file)

namespace Extraction

/-- The warnings or the errors of a file as issues. -/
def issuesOf (e : Extraction) : Severity → List Issue
  | .warning => e.warnings.map .warning
  | .error => e.errors.map .error

end Extraction

theorem visitedIn_filter_severity (src : Source) (file : String) (m : Module) (s : Severity) :
    (visitedIn src file m).filter (·.severity == s) =
      (Extraction.ofModule src file m).issuesOf s := by
  rw [Extraction.ofModule_eq_foldl, foldl_judge_eq_gathered]
  cases s <;>
  · rw [Extraction.issuesOf, gathered, visitedIn, List.map_filterMap, List.filterMap_map,
      List.filter_filterMap]
    apply List.filterMap_congr
    intro n _
    rw [Function.comp_apply]
    rcases outcome? src n with _ | key | ⟨key, reason⟩ | ⟨key, reason⟩ <;> rfl

namespace Collect

section File

variable {fs : FileSystem} {path : String} {e : Extraction}

theorem Extracts.file_of_mem_issuesOf (h : Extracts fs path e) {s : Severity} {i : Issue}
    (hi : i ∈ e.issuesOf s) : i.file = path := by
  obtain ⟨text, m, -, -, rfl⟩ := h
  have hlabel := Extraction.labelled_ofModule (.ofString text) path m
  cases s with
  | warning =>
    obtain ⟨r, hr, rfl⟩ := List.mem_map.1 hi
    exact hlabel r (List.mem_append_left _ hr)
  | error =>
    obtain ⟨r, hr, rfl⟩ := List.mem_map.1 hi
    exact hlabel r (List.mem_append_right _ hr)

theorem filter_isAt_failures (h : Extracts fs path e) (paths : List String) (line : Option Nat) :
    ((Aggregate.failuresOf (paths.map (extractFile fs))).map Issue.unreadable).filter
      (Issue.isAt path line) = [] := by
  rw [List.filter_eq_nil_iff]
  intro i hi hat
  obtain ⟨f, hf, rfl⟩ := List.mem_map.1 hi
  have hfile : f.file ∈ paths.filter (!isUsable fs ·) := by
    rw [← failuresOf_file]
    exact List.mem_map_of_mem hf
  have hpath : f.file = path := (Issue.isAt_iff.1 hat).1
  have husable : isUsable fs path = true := (isUsable_iff fs).2 ⟨e, h⟩
  rw [List.mem_filter, hpath, husable] at hfile
  exact absurd hfile.2 (by decide)

theorem filter_isAt_others {paths : List String} (hpath : path ∉ paths) (s : Severity)
    (line : Option Nat) :
    ((Aggregate.extractions (paths.map (extractFile fs))).flatMap (·.issuesOf s)).filter
      (Issue.isAt path line) = [] := by
  rw [List.filter_eq_nil_iff]
  intro i hi hat
  obtain ⟨e, he, hi⟩ := List.mem_flatMap.1 hi
  obtain ⟨p, hp, hextracts⟩ := (mem_extractions_iff fs).1 he
  have hfile : p = path := (hextracts.file_of_mem_issuesOf hi).symm.trans (Issue.isAt_iff.1 hat).1
  exact hpath (hfile ▸ hp)

theorem filter_isAt_extractions (h : Extracts fs path e) {paths : List String}
    (hnodup : paths.Nodup) (hpath : path ∈ paths) (s : Severity) (line : Option Nat) :
    ((Aggregate.extractions (paths.map (extractFile fs))).flatMap (·.issuesOf s)).filter
      (Issue.isAt path line) = (e.issuesOf s).filter (Issue.isAt path line) := by
  obtain ⟨before, after, rfl⟩ := List.append_of_mem hpath
  obtain ⟨hafter, hbefore⟩ : path ∉ after ∧ path ∉ before := by
    rw [List.nodup_middle, List.nodup_cons, List.mem_append, not_or] at hnodup
    exact hnodup.1.symm
  have hsplit : Aggregate.extractions ((before ++ path :: after).map (extractFile fs)) =
      Aggregate.extractions (before.map (extractFile fs)) ++
        e :: Aggregate.extractions (after.map (extractFile fs)) := by
    rw [List.map_append, List.map_cons, extractFile_eq_ok_iff.2 h, Aggregate.extractions,
      List.filterMap_append]
    rfl
  rw [hsplit, List.flatMap_append, List.flatMap_cons, List.filter_append, List.filter_append,
    filter_isAt_others hbefore, filter_isAt_others hafter, List.nil_append, List.append_nil]

/-- On a line of a file, the issues of all files are its warnings there, then its errors there. -/
theorem filter_isAt_issues (h : Extracts fs path e) {paths : List String} (hnodup : paths.Nodup)
    (hpath : path ∈ paths) (line : Option Nat) :
    (extractFiles fs paths).issues.filter (Issue.isAt path line) =
      (e.issuesOf .warning).filter (Issue.isAt path line) ++
        (e.issuesOf .error).filter (Issue.isAt path line) := by
  have hperm := sortPaths_perm paths
  have hall := filter_isAt_extractions h (hperm.nodup_iff.2 hnodup) (hperm.mem_iff.2 hpath)
  rw [extractFiles, Aggregate.ofResults_eq, Aggregate.issues, List.filter_append,
    List.filter_append, filter_isAt_failures h, List.nil_append, List.map_flatMap,
    List.map_flatMap]
  exact congrArg₂ _ (hall .warning line) (hall .error line)

end File

end Collect

theorem Issue.warnings_append_errors_eq_iff {is : List Issue} :
    is.filter (·.severity == .warning) ++ is.filter (·.severity == .error) = is ↔
      is.Pairwise fun i j => ¬(i.severity = .error ∧ j.severity = .warning) := by
  constructor
  · intro h
    have hmem {s : Severity} {i : Issue} (hi : i ∈ is.filter (·.severity == s)) :
        i.severity = s := beq_iff_eq.1 (List.mem_filter.1 hi).2
    rw [← h, List.pairwise_append]
    refine ⟨List.pairwise_of_forall_mem_list fun i hi j _ => ?_,
      List.pairwise_of_forall_mem_list fun i _ j hj => ?_, fun i hi j _ => ?_⟩
    · simp [hmem hi]
    · simp [hmem hj]
    · simp [hmem hi]
  · intro h
    induction is with
    | nil => rfl
    | cons i is ih =>
      obtain ⟨hi, his⟩ := List.pairwise_cons.1 h
      cases hseverity : i.severity with
      | warning =>
        rw [List.filter_cons_of_pos (by simp [hseverity]),
          List.filter_cons_of_neg (by simp [hseverity]), List.cons_append, ih his]
      | error =>
        have hrest : ∀ j ∈ is, j.severity = .error := by
          intro j hj
          cases hj' : j.severity with
          | error => rfl
          | warning => exact absurd ⟨hseverity, hj'⟩ (hi j hj)
        have hall : ∀ j ∈ i :: is, j.severity = .error :=
          List.forall_mem_cons.2 ⟨hseverity, hrest⟩
        have hnone : (i :: is).filter (·.severity == .warning) = [] :=
          List.filter_eq_nil_iff.2 fun j hj => by simp [hall j hj]
        have hself : (i :: is).filter (·.severity == .error) = i :: is :=
          List.filter_eq_self.2 fun j hj => by simp [hall j hj]
        rw [hnone, hself, List.nil_append]

namespace Terminal.CommandResult

/-- On a line of a file, the warnings are shown before the errors. -/
theorem finish_filter_isAt {fs : FileSystem} {paths : List String} (hnodup : paths.Nodup)
    {path text : String} (hpath : path ∈ paths) (htext : fs.readText path = .ok text)
    {visited : List Issue} (hvisited : visitedIssues text path = .ok visited) (summary : Summary)
    (filesChecked : Nat) (line : Option Nat) :
    (finish summary (Collect.extractFiles fs paths).issues filesChecked).issues.filter
        (Issue.isAt path line) =
      (visited.filter (Issue.isAt path line)).filter (·.severity == .warning) ++
        (visited.filter (Issue.isAt path line)).filter (·.severity == .error) := by
  obtain ⟨m, hm, rfl⟩ : ∃ m, parseSource (.ofString text) path = .ok m ∧
      visitedIn (.ofString text) path m = visited := by
    rw [visitedIssues] at hvisited
    cases hm : parseSource (.ofString text) path with
    | error failure =>
      rw [hm] at hvisited
      cases hvisited
    | ok m =>
      rw [hm] at hvisited
      exact ⟨m, rfl, Except.ok.inj hvisited⟩
  have hextracts : Collect.Extracts fs path (Extraction.ofModule (.ofString text) path m) :=
    ⟨text, m, htext, hm, rfl⟩
  have hcomm (s : Severity) : ((visitedIn (.ofString text) path m).filter
      (Issue.isAt path line)).filter (·.severity == s) =
      ((Extraction.ofModule (.ofString text) path m).issuesOf s).filter (Issue.isAt path line) := by
    rw [← visitedIn_filter_severity, List.filter_comm]
  rw [hcomm, hcomm, ← Collect.filter_isAt_issues hextracts hnodup hpath line]
  exact Issue.sort_filter_isAt _ path line

/-- On a line of a file, each two warnings and each two errors are shown in the order of the walk.
All issues there are, unless the walk comes to an error before a warning. -/
theorem finish_visit_order (fs : FileSystem) (paths : List String) (hnodup : paths.Nodup)
    (path text : String) (hpath : path ∈ paths) (htext : fs.readText path = .ok text)
    (visited : List Issue) (hvisited : visitedIssues text path = .ok visited) (summary : Summary)
    (filesChecked : Nat) (line : Option Nat) :
    let result := finish summary (Collect.extractFiles fs paths).issues filesChecked
    let shown := result.issues.filter (Issue.isAt path line)
    let walked := visited.filter (Issue.isAt path line)
    shown = walked.filter (·.severity == .warning) ++ walked.filter (·.severity == .error) ∧
      (shown = walked ↔
        walked.Pairwise fun i j => ¬(i.severity = .error ∧ j.severity = .warning)) := by
  intro result shown walked
  have hshown := finish_filter_isAt hnodup hpath htext hvisited summary filesChecked line
  refine ⟨hshown, ?_⟩
  rw [← Issue.warnings_append_errors_eq_iff]
  exact ⟨fun h => hshown.symm.trans h, fun h => hshown.trans h⟩

/-- A file with a warning before an error on its first line. -/
def orderedProject : FileSystem where
  entries := [(["w"], .directory), (["w", "a.ts"], .file "t(`c`); t(x);\nt(y);".toUTF8)]
  workingDirectory := ["w"]

theorem finish_visit_order_orderedProject :
    (finish (.init ⟨true, none⟩) (Collect.extractFiles orderedProject ["b.ts", "a.ts"]).issues
        2).issues.filter (Issue.isAt "a.ts" (some 1)) =
      [.warning ⟨"c", .templateWithoutExpressions, "a.ts", some 1⟩,
        .error ⟨"t(x)", .unsupportedArgument, "a.ts", some 1⟩] := by
  obtain ⟨-, hiff⟩ := finish_visit_order orderedProject ["b.ts", "a.ts"] (by decide) "a.ts"
    "t(`c`); t(x);\nt(y);" (by decide) (by decide +kernel)
    [.warning ⟨"c", .templateWithoutExpressions, "a.ts", some 1⟩,
      .error ⟨"t(x)", .unsupportedArgument, "a.ts", some 1⟩,
      .error ⟨"t(y)", .unsupportedArgument, "a.ts", some 2⟩]
    (by decide +kernel) (.init ⟨true, none⟩) 2 (some 1)
  exact hiff.2 (by decide)

/-- An error that the walk comes to first is shown after a warning on the same line. -/
theorem not_visit_order_mixedProject :
    mixedProject.readText "app.js" = .ok "t(x); t(`c`);" ∧
      visitedIssues "t(x); t(`c`);" "app.js" =
        .ok [.error ⟨"t(x)", .unsupportedArgument, "app.js", some 1⟩,
          .warning ⟨"c", .templateWithoutExpressions, "app.js", some 1⟩] ∧
      (finish (.init ⟨true, none⟩) (Collect.extractFiles mixedProject ["app.js"]).issues
          1).issues.filter (Issue.isAt "app.js" (some 1)) =
        [.warning ⟨"c", .templateWithoutExpressions, "app.js", some 1⟩,
          .error ⟨"t(x)", .unsupportedArgument, "app.js", some 1⟩] := by
  have htext : mixedProject.readText "app.js" = .ok "t(x); t(`c`);" := by decide +kernel
  have hvisited : visitedIssues "t(x); t(`c`);" "app.js" =
      .ok [.error ⟨"t(x)", .unsupportedArgument, "app.js", some 1⟩,
        .warning ⟨"c", .templateWithoutExpressions, "app.js", some 1⟩] := by
    decide +kernel
  refine ⟨htext, hvisited, ?_⟩
  rw [finish_filter_isAt (by decide) (by decide) htext hvisited]
  decide

end Terminal.CommandResult

end MessageKeys

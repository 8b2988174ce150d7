import MessageKeys.Proofs.Collection
import MessageKeys.Proofs.ReportFiles
import MessageKeys.Proofs.ReportLines
import MessageKeys.Proofs.Runs

namespace MessageKeys

open Json (Value)

theorem Report.readText_errorsFile {r : Report} {fs fs' : FileSystem} {dir : String}
    {written : List String} (h : r.write fs dir = (fs', .ok written)) :
    fs'.readText (Path.join dir errorsFile) =
      .ok ((Value.array (r.errors.map Record.toJson)).pretty ++ "\n") := by
  obtain ⟨fs₁, hfiles⟩ := writeFiles_of_write h
  obtain ⟨fs₂, rest₂, -, hfiles₂, -⟩ := writeFiles_cons_eq_ok_iff.1 hfiles
  obtain ⟨fs₃, rest₃, -, hfiles₃, -⟩ := writeFiles_cons_eq_ok_iff.1 hfiles₂
  obtain ⟨fs₄, rest₄, hw, hfiles₄, -⟩ := writeFiles_cons_eq_ok_iff.1 hfiles₃
  -- Nothing is written after this file, so it does not matter what the others are.
  cases hfiles₄
  exact FileSystem.readText_of_writeText hw

theorem Collect.failures_extractFiles_ne_nil_iff {fs : FileSystem} {paths : StringSet} :
    (Collect.extractFiles fs paths.toList).failures ≠ [] ↔
      ∃ path ∈ paths, ¬∃ e, Collect.Extracts fs path e := by
  have hfile := Collect.failuresOf_file fs (Collect.sortPaths paths.toList)
  rw [Collect.extractFiles, Aggregate.ofResults_eq, ne_eq,
    ← List.map_eq_nil_iff (f := Failure.file), hfile, List.filter_eq_nil_iff]
  simp only [← Collect.isUsable_iff, (Collect.sortPaths_perm paths.toList).mem_iff,
    StringSet.mem_toList]
  simp

namespace Terminal

namespace Listing

section Issues

variable (a : Aggregate)

theorem countP_issues (p : Issue → Bool) :
    a.issues.countP p = a.failures.countP (p ∘ .unreadable) + a.warnings.countP (p ∘ .warning) +
      a.errors.countP (p ∘ .error) := by
  simp only [Aggregate.issues, List.countP_append, List.countP_map]

theorem errorCount_issues : errorCount a.issues = a.errors.length + a.failures.length := by
  rw [errorCount, countP_issues]
  change a.failures.countP (fun _ => true) + a.warnings.countP (fun _ => false) +
    a.errors.countP (fun _ => true) = _
  simp [Nat.add_comm]

theorem warningCount_issues : warningCount a.issues = a.warnings.length := by
  rw [warningCount, countP_issues]
  change a.failures.countP (fun _ => false) + a.warnings.countP (fun _ => true) +
    a.errors.countP (fun _ => false) = _
  simp

theorem countP_isUnreadable_issues : a.issues.countP isUnreadable = a.failures.length := by
  rw [countP_issues]
  change a.failures.countP (fun _ => true) + a.warnings.countP (fun _ => false) +
    a.errors.countP (fun _ => false) = _
  simp

end Issues

theorem errorCount_eq_of_perm {is js : List Issue} (h : is.Perm js) :
    errorCount is = errorCount js :=
  h.countP_eq _

theorem warningCount_eq_of_perm {is js : List Issue} (h : is.Perm js) :
    warningCount is = warningCount js :=
  h.countP_eq _

theorem length_eq_errorCount_add_warningCount (is : List Issue) :
    is.length = errorCount is + warningCount is := by
  have hwarning : warningCount is = is.countP fun i => !(i.severity == .error) := by
    refine List.countP_congr fun i _ => ?_
    cases i.severity <;> decide
  rw [hwarning, errorCount, List.length_eq_countP_add_countP fun i : Issue => i.severity == .error]
  simp only [Bool.not_eq_true, Bool.decide_eq_false]

/-- The last line about so many errors and warnings. -/
def totalsText (colored : Bool) (errors warnings : Nat) : String :=
  painted colored "31" "✘" ++ " " ++ toString (errors + warnings) ++ " problems (" ++
    toString errors ++ " " ++ painted colored "31" (if errors = 1 then "error" else "errors") ++
    ", " ++ toString warnings ++ " " ++
    painted colored "33" (if warnings = 1 then "warning" else "warnings") ++ ")\n"

/-- What is printed about one issue. Unless its path has line feeds, its lines are whole lines of
any text that goes on after them. -/
structure IsBlock (colored : Bool) (i : Issue) (block : String) : Prop where
  ne_empty : block ≠ ""
  text : block = String.join ((blockLines colored i).map (· ++ "\n"))
  lines : '\n' ∉ i.file.toList → ∀ rest, Text.splitLines (block.toList ++ rest) =
    (blockLines colored i).map (fun line => Text.dropReturn line.toList) ++ Text.splitLines rest

theorem render_append (colored : Bool) (s t : Styled) :
    (s ++ t).render colored = s.render colored ++ t.render colored := by
  simp [Styled.render]

theorem noun_eq (n : Nat) (singular : String) :
    noun n singular = if n = 1 then singular else singular ++ "s" := by
  simp [noun]

theorem isBlock_iff {colored : Bool} {i : Issue} {block : String} :
    IsBlock colored i block ↔ (issue i).render colored = block := by
  constructor
  · intro h
    rw [render_issue, h.text]
  · rintro rfl
    refine ⟨?_, render_issue colored i,
      fun hfile rest => splitLines_render_issue hfile colored rest⟩
    rw [render_issue]
    simp [blockLines]

theorem forall₂_isBlock_iff {colored : Bool} {is : List Issue} {blocks : List String} :
    List.Forall₂ (IsBlock colored) is blocks ↔
      is.map (fun i => (issue i).render colored) = blocks :=
  forall₂_iff_map_eq (f := fun i => (issue i).render colored) (fun _ _ => isBlock_iff) is blocks

theorem render_flatMap_issue (colored : Bool) (is : List Issue) :
    Styled.render colored (is.flatMap issue) =
      String.join (is.map fun i => (issue i).render colored) := by
  induction is with
  | nil => rfl
  | cons i is ih =>
    rw [List.flatMap_cons, render_append, ih, List.map_cons, String.join_cons]

theorem render_totals (colored : Bool) (is : List Issue) :
    (totals is).render colored = totalsText colored (errorCount is) (warningCount is) := by
  have hstring (s : String) : toString s = s := rfl
  simp [totals, totalsText, Styled.render, render_plain, render_styled, noun_eq, failureMark,
    Style.code, hstring, String.append_assoc]

theorem exists_blocks (colored : Bool) {is : List Issue} (h : is ≠ []) :
    ∃ blocks, List.Forall₂ (IsBlock colored) is blocks ∧
      (issues is).render colored =
        String.join blocks ++ totalsText colored (errorCount is) (warningCount is) := by
  refine ⟨_, forall₂_isBlock_iff.2 rfl, ?_⟩
  rw [issues, if_neg (by simpa using h), render_append, render_flatMap_issue, render_totals]

theorem render_totals_ne_empty (colored : Bool) (is : List Issue) :
    (totals is).render colored ≠ "" := by
  intro h
  rw [totals, Styled.render, List.map_cons, String.join_cons] at h
  cases colored <;> simp [Piece.render, failureMark] at h

theorem render_issues_eq_empty_iff (colored : Bool) (is : List Issue) :
    (issues is).render colored = "" ↔ is = [] := by
  cases is with
  | nil => exact ⟨fun _ => rfl, fun _ => rfl⟩
  | cons i is =>
    rw [issues, if_neg (by simp), render_append]
    simp [render_totals_ne_empty]

end Listing

namespace CommandResult

variable (summary : ExtractSummary) (a : Aggregate) (filesChecked : Nat)

theorem finish_issues_perm :
    (finish (.extract summary) a.issues filesChecked).issues.Perm a.issues :=
  List.mergeSort_perm _ _

theorem finish_errorCount : (finish (.extract summary) a.issues filesChecked).errorCount =
    a.errors.length + a.failures.length :=
  Listing.errorCount_issues a

theorem finish_warningCount :
    (finish (.extract summary) a.issues filesChecked).warningCount = a.warnings.length :=
  Listing.warningCount_issues a

theorem finish_unreadableCount :
    (finish (.extract summary) a.issues filesChecked).unreadableCount = a.failures.length :=
  Listing.countP_isUnreadable_issues a

/-- The counts are those of the issues in the order in which they are shown. -/
theorem finish_errorCount_eq : (finish (.extract summary) a.issues filesChecked).errorCount =
    Listing.errorCount (finish (.extract summary) a.issues filesChecked).issues :=
  Listing.errorCount_eq_of_perm (finish_issues_perm summary a filesChecked).symm

theorem finish_warningCount_eq : (finish (.extract summary) a.issues filesChecked).warningCount =
    Listing.warningCount (finish (.extract summary) a.issues filesChecked).issues :=
  Listing.warningCount_eq_of_perm (finish_issues_perm summary a filesChecked).symm

theorem exitStatus_eq_failure_iff {r : CommandResult} :
    r.exitStatus = .failure ↔ 0 < r.errorCount := by
  unfold exitStatus
  split <;> simp_all

end CommandResult

open Run

/-- After an extraction that succeeds, the exit status, the counts and what is printed agree with
the lists of errors and warnings and with the files that could not be read. In colours or without
them, one block is printed about each issue, and the totals after the last one. -/
theorem extract_totals (fs : FileSystem) (a : ExtractArguments) (status : ExitStatus) (w : Effects)
    (h : runOn fs (some (.extract a)) = (.ok status, w)) :
    ∃ (loaded : Settings.Loaded) (result : CommandResult) (summary : ExtractSummary) (w₁ : Effects),
      let s := loaded.settings
      let found := a.aggregate fs s
      let printed := Listing.issues result.issues
      Settings.load fs a.root = .ok loaded ∧
      Returns (extractCommand a) { files := fs } result w₁ ∧
      (status = .failure ↔
        found.errors ≠ [] ∨ ∃ path ∈ a.scanned fs s, ¬∃ e, Collect.Extracts fs path e) ∧
      (a.dryRun = false →
        w.files.readText (Path.join (a.reportDir s) Report.errorsFile) =
          .ok ((Value.array (found.errors.map Record.toJson)).pretty ++ "\n")) ∧
      result.errorCount = found.errors.length + found.failures.length ∧
      result.warningCount = found.warnings.length ∧
      result.unreadableCount = found.failures.length ∧
      result.summary = .extract summary ∧
      w.stdout = printed ++ summary.render result.filesChecked a.verbose ∧
      result.issues.Perm found.issues ∧
      result.issues.length = result.errorCount + result.warningCount ∧
      ∀ colored,
        (0 < result.errorCount + result.warningCount →
          ∃ blocks : List String,
            blocks.length = result.errorCount + result.warningCount ∧
            List.Forall₂ (Listing.IsBlock colored) result.issues blocks ∧
            printed.render colored = String.join blocks ++
              Listing.totalsText colored result.errorCount result.warningCount) ∧
        (printed.render colored = "" ↔ result.errorCount = 0 ∧ result.warningCount = 0) := by
  obtain ⟨loaded, existing, written, hload, hleave, rfl, hstdout⟩ := of_runOn_extract_ok h
  obtain ⟨w₁, hreturns⟩ := returns_extractCommand hload hleave
  let result := a.result fs loaded.settings existing written
  let found := a.aggregate fs loaded.settings
  have herrors : result.errorCount = found.errors.length + found.failures.length :=
    CommandResult.finish_errorCount _ _ _
  have hshownErrors : result.errorCount = Listing.errorCount result.issues :=
    CommandResult.finish_errorCount_eq _ _ _
  have hshownWarnings : result.warningCount = Listing.warningCount result.issues :=
    CommandResult.finish_warningCount_eq _ _ _
  have hlength : result.issues.length = result.errorCount + result.warningCount := by
    rw [hshownErrors, hshownWarnings]
    exact Listing.length_eq_errorCount_add_warningCount result.issues
  refine ⟨loaded, result, a.summary fs loaded.settings existing written, w₁,
    (load_eq_ok_iff.1 hload).1, hreturns, ?_, ?_, herrors, CommandResult.finish_warningCount _ _ _,
    CommandResult.finish_unreadableCount _ _ _, rfl, hstdout,
    CommandResult.finish_issues_perm _ _ _, hlength, fun colored => ⟨fun hpos => ?_, ?_⟩⟩
  · have hfailures : found.failures ≠ [] ↔ _ := Collect.failures_extractFiles_ne_nil_iff
    rw [CommandResult.exitStatus_eq_failure_iff, herrors, ← hfailures, ← List.length_pos_iff,
      ← List.length_pos_iff]
    exact Nat.add_pos_iff_pos_or_pos
  · intro hdry
    rw [leave_eq_ok_iff, hdry, if_neg (by simp)] at hleave
    exact Report.readText_errorsFile hleave
  · obtain ⟨blocks, hblocks, hprinted⟩ := Listing.exists_blocks colored
      (List.ne_nil_of_length_pos (hlength ▸ hpos))
    rw [← hshownErrors, ← hshownWarnings] at hprinted
    exact ⟨blocks, hblocks.length_eq.symm.trans hlength, hblocks, hprinted⟩
  · rw [Listing.render_issues_eq_empty_iff, ← List.length_eq_zero_iff, hlength]
    omega

/-- A project with an error and a warning in one file. -/
def mixedProject : FileSystem where
  entries := [(["w"], .directory), (["w", "app.js"], .file "t(x); t(`c`);".toUTF8)]
  workingDirectory := ["w"]

def mixedLeft : Effects := (runOn mixedProject (some (.extract {}))).2

theorem extract_totals_mixedProject :
    runOn mixedProject (some (.extract {})) = (.ok .failure, mixedLeft) ∧
      ∃ (result : CommandResult) (w₁ : Effects) (blocks : List String),
        Returns (extractCommand {}) { files := mixedProject } result w₁ ∧
        blocks.length = 2 ∧
        "\x1b[1;31merror\x1b[0m: \"t(x)\"  \x1b[2;36munsupported-argument\x1b[0m\n" ++
          "  \x1b[34m-->\x1b[0m ./app.js:1\n" ++
          "  \x1b[34m=\x1b[0m \x1b[1mnote:\x1b[0m Unsupported argument type\n" ++ "\n" ∈ blocks ∧
        (Listing.issues result.issues).render true = String.join blocks ++
          "\x1b[31m✘\x1b[0m 2 problems (1 \x1b[31merror\x1b[0m, 1 \x1b[33mwarning\x1b[0m)\n" := by
  have hrun : runOn mixedProject (some (.extract {})) = (.ok .failure, mixedLeft) :=
    Prod.ext (by decide +kernel) (by rw [mixedLeft])
  obtain ⟨loaded, result, summary, w₁, hload, hreturns, -, -, herrors, hwarnings, -, -, -, hperm,
    -, hprinted⟩ := extract_totals mixedProject {} .failure mixedLeft hrun
  have hdefault : Settings.load mixedProject "." = .ok ⟨{}, none⟩ := by decide +kernel
  obtain rfl : ⟨{}, none⟩ = loaded := Except.ok.inj (hdefault.symm.trans hload)
  have hcounts : (ExtractArguments.aggregate {} mixedProject {}).errors.length = 1 ∧
      (ExtractArguments.aggregate {} mixedProject {}).failures.length = 0 ∧
      (ExtractArguments.aggregate {} mixedProject {}).warnings.length = 1 := by
    decide +kernel
  have hfound : .error ⟨"t(x)", .unsupportedArgument, "./app.js", some 1⟩ ∈
      (ExtractArguments.aggregate {} mixedProject {}).issues := by
    decide +kernel
  have htotals : Listing.totalsText true (1 + 0) 1 =
      "\x1b[31m✘\x1b[0m 2 problems (1 \x1b[31merror\x1b[0m, 1 \x1b[33mwarning\x1b[0m)\n" := by
    decide +kernel
  rw [hcounts.1, hcounts.2.1] at herrors
  rw [hcounts.2.2] at hwarnings
  obtain ⟨blocks, hlength, hblocks, htext⟩ := (hprinted true).1 (by omega)
  rw [herrors, hwarnings] at hlength
  rw [herrors, hwarnings, htotals] at htext
  refine ⟨hrun, result, w₁, blocks, hreturns, hlength, ?_, htext⟩
  rw [← Listing.forall₂_isBlock_iff.1 hblocks]
  exact List.mem_map.2 ⟨_, hperm.mem_iff.2 hfound, by decide +kernel⟩

end Terminal

end MessageKeys

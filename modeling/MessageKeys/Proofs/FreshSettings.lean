import MessageKeys.Proofs.Agreement
import MessageKeys.Proofs.Rerun
import MessageKeys.Proofs.SettingsText

namespace MessageKeys

open FileSystem

namespace Settings

theorem findFrom_of_sameBut {loc : Location} {fs fs' : FileSystem} (hfs : fs.LinkFree)
    (h : SameBut (· = loc) fs fs') (hgit : loc.getLast? ≠ some ".git") {fuel : Nat} {dir : String}
    (hnone : findFrom fs fuel dir = none) :
    findFrom fs' fuel dir = none ∨
      ∃ path, findFrom fs' fuel dir = some path ∧ fs'.resolve path = .ok loc := by
  induction fuel generalizing dir with
  | zero => exact .inl rfl
  | succ fuel ih =>
    have hrepository : fs.destination (Path.join dir ".git") ≠ loc := by
      rintro rfl
      rw [destination_join_name (by decide), List.getLast?_concat] at hgit
      exact hgit rfl
    rw [findFrom] at hnone ⊢
    rw [h.pathExists_eq hfs hrepository]
    split at hnone
    · cases hnone
    next hmissing =>
      by_cases hexists : fs'.pathExists (Path.join dir fileName) = true
      · rw [if_pos hexists]
        refine .inr ⟨_, rfl, ?_⟩
        rw [resolve_of_pathExists (hfs.of_sameBut h) hexists, h.destination_eq]
        by_contra hne
        rw [h.pathExists_eq hfs fun heq => hne (congrArg _ heq)] at hexists
        exact hmissing hexists
      · rw [if_neg hexists]
        split at hnone
        next hend => exact .inl (if_pos hend)
        next hend =>
          rw [if_neg hend]
          cases hparent : Path.parent? dir with
          | none => exact .inl rfl
          | some around =>
            rw [hparent] at hnone
            exact ih hnone

theorem validate_default : validate {} = .ok () := by decide +kernel

/-- Settings that were written are those that are read, if their patterns are in order. -/
theorem loadFile_of_pretty {fs : FileSystem} {path : String} {s : Settings}
    (h : fs.readText path = .ok (s.toJson.pretty ++ "\n")) (hvalid : s.validate = .ok ()) :
    loadFile fs path = .ok s := by
  simp only [loadFile, h, parse?_pretty, hvalid]
  rfl

/-- With the default values in a file, the values are those that hold without a file. -/
theorem load_of_sameBut {loc : Location} {fs fs' : FileSystem} (hfs : fs.LinkFree)
    (h : SameBut (· = loc) fs fs') (hgit : loc.getLast? ≠ some ".git")
    (hcontent : fs'.get? loc = some (.file (defaultText ++ "\n").toUTF8)) {dir : String}
    (hnone : find? fs dir = none) : ∃ file, load fs' dir = .ok ⟨{}, file⟩ := by
  rw [load]
  rcases findFrom_of_sameBut hfs h hgit hnone with hnone' | ⟨path, hfound, hpath⟩
  · rw [find?, hnone']
    exact ⟨none, rfl⟩
  · have hread : fs'.readText path = .ok (defaultText ++ "\n") :=
      readText_eq_ok_iff.2 (read_eq_ok_iff.2 ⟨loc, hpath, hcontent⟩)
    rw [find?, hfound]
    exact ⟨some path, by simp only [loadFile_of_pretty hread validate_default]; rfl⟩

theorem find?_of_load {fs : FileSystem} {dir : String} {loaded : Loaded}
    (h : load fs dir = .ok loaded) (hfile : loaded.file = none) :
    find? fs dir = none ∧ loaded.settings = {} := by
  rw [load] at h
  split at h
  next hnone =>
    cases h
    exact ⟨hnone, rfl⟩
  next path _ =>
    obtain ⟨s, -, hs⟩ := Glob.map_eq_ok_iff.1 h
    rw [← hs] at hfile
    cases hfile

end Settings

namespace Terminal

open Run

theorem exitStatus_of_leaves {fs fs' : FileSystem} (command : Command) {result : CommandResult}
    (h : Leaves command.run { files := fs } (.ok result) fs') :
    (runOn fs (some command)).1 = .ok result.exitStatus := by
  obtain ⟨stderr, events, hrun⟩ := h
  have hbind : runOn fs (some command) = ExceptT.run (command.run >>= _) { files := fs } := rfl
  rw [hbind, run_bind, hrun]
  rfl

theorem of_runOn_init_success {fs : FileSystem} {w : Effects}
    (h : runOn fs (some .init) = (.ok .success, w)) :
    fs.pathExists Settings.fileName = false ∧
      fs.writeText Settings.fileName (Settings.defaultText ++ "\n") = .ok w.files := by
  cases hexists : fs.pathExists Settings.fileName with
  | true =>
    have hstatus := exitStatus_of_leaves .init (finds_initCommand_of_exists hexists)
    rw [h] at hstatus
    cases hstatus
  | false =>
    refine ⟨rfl, ?_⟩
    cases hwrite : fs.writeText Settings.fileName (Settings.defaultText ++ "\n") with
    | error e =>
      have hfails := runOn_of_leaves .init (finds_initCommand_of_error hexists hwrite)
      obtain ⟨result, hresult⟩ := hfails.2.1 ⟨_, by rw [h]⟩
      cases hresult
    | ok fs' =>
      have hleft := (runOn_of_leaves .init (leaves_initCommand_of_ok hexists hwrite)).1
      rw [← hleft, h]

theorem load_of_existing_error {fs : FileSystem} {a : ExtractArguments} {s : Settings}
    {file : Option String} {p : Problem} (hsettings : Settings.load fs a.root = .ok ⟨s, file⟩)
    (h : (a.existingPath? s).mapM (Catalogue.load fs) = .error p) : a.load fs = .error p := by
  rw [ExtractArguments.load, hsettings]
  simp only [Except.bind, h]

section Agree

variable {loc : Location} {fs fs' : FileSystem} (h : AgreeOff loc fs fs') {a : ExtractArguments}
  {s : Settings}
include h

theorem mapM_load_agree {path? : Option String} (hpath : ∀ path ∈ path?, ¬ fs.OnPath path loc) :
    path?.mapM (Catalogue.load fs') = path?.mapM (Catalogue.load fs) := by
  cases path? with
  | none => rfl
  | some path =>
    have hload : Catalogue.load fs' path = Catalogue.load fs path := by
      rw [Catalogue.load, Catalogue.load, h.readText_eq (hpath path rfl)]
    rw [Option.mapM_some, Option.mapM_some, hload]

variable (haggregate : a.aggregate fs' s = a.aggregate fs s)
  (hdir : ¬ fs.OnPath (a.reportDir s) loc)
  (hfiles : ∀ name ∈ Report.fileNames, ¬ fs.OnPath (Path.join (a.reportDir s) name) loc)
include haggregate hdir hfiles

theorem leave_agree (existing : Option StringSet) :
    LeavingsAgree loc (a.leave fs s existing) (a.leave fs' s existing) := by
  have hreport : a.report fs' s existing = a.report fs s existing := by
    rw [ExtractArguments.report, ExtractArguments.report, haggregate]
  rw [ExtractArguments.leave, ExtractArguments.leave, hreport]
  split
  · exact ⟨h, rfl⟩
  · obtain ⟨hleft, hresult⟩ := (a.report fs s existing).write_agree h hdir hfiles
    exact ⟨hleft, congrArg (inContext s!"Failed to write report to {a.reportDir s}") hresult⟩

/-- An extraction reads, prints and leaves the same with the same settings, whether they were found
in a file or not. -/
theorem runOn_extract_agree {file file' : Option String}
    (hsettings : Settings.load fs a.root = .ok ⟨s, file⟩)
    (hsettings' : Settings.load fs' a.root = .ok ⟨s, file'⟩)
    (hkeys : ∀ path ∈ a.existingPath? s, ¬ fs.OnPath path loc) :
    let run := runOn fs (some (.extract a))
    let run' := runOn fs' (some (.extract a))
    run'.1 = run.1 ∧ run'.2.stdout = run.2.stdout ∧ AgreeOff loc run.2.files run'.2.files := by
  have hexisting := mapM_load_agree h hkeys
  cases hload : (a.existingPath? s).mapM (Catalogue.load fs) with
  | error p =>
    obtain ⟨stderr, events, hrun⟩ :=
      runOn_extract_of_load_error (load_of_existing_error hsettings hload)
    obtain ⟨stderr', events', hrun'⟩ :=
      runOn_extract_of_load_error (load_of_existing_error hsettings' (hexisting.trans hload))
    dsimp only
    rw [hrun, hrun']
    exact ⟨rfl, rfl, h⟩
  | ok existing =>
    have hread := load_eq_ok_iff.2 ⟨hsettings, hload⟩
    have hread' := load_eq_ok_iff.2 ⟨hsettings', hexisting.trans hload⟩
    have hresult : ∀ written, a.result fs' s existing written = a.result fs s existing written := by
      intro written
      rw [ExtractArguments.result, ExtractArguments.result, ExtractArguments.summary,
        ExtractArguments.summary, haggregate]
    have hleave := leave_agree h haggregate hdir hfiles existing
    rcases hl : a.leave fs s existing with ⟨g, r⟩
    rcases hl' : a.leave fs' s existing with ⟨g', r'⟩
    rw [hl, hl'] at hleave
    obtain ⟨hagree, rfl⟩ := hleave
    dsimp only
    cases r' with
    | error p =>
      obtain ⟨stderr, events, hrun⟩ := runOn_extract_of_leave_error hread hl
      obtain ⟨stderr', events', hrun'⟩ := runOn_extract_of_leave_error hread' hl'
      rw [hrun, hrun']
      exact ⟨rfl, rfl, hagree⟩
    | ok written =>
      obtain ⟨stderr, events, hrun⟩ := runOn_extract_of_leave_ok hread hl
      obtain ⟨stderr', events', hrun'⟩ := runOn_extract_of_leave_ok hread' hl'
      rw [hrun, hrun', hresult written]
      exact ⟨rfl, rfl, hagree⟩

end Agree

theorem workingDirectory_runOn_extract {fs : FileSystem} (hfs : fs.LinkFree)
    (a : ExtractArguments) :
    (runOn fs (some (.extract a))).2.files.workingDirectory = fs.workingDirectory := by
  have hleaves := leaves_extractCommand a { files := fs }
  dsimp only at hleaves
  cases hload : a.load fs with
  | error p =>
    obtain ⟨stderr, events, hrun⟩ := runOn_extract_of_load_error hload
    rw [hrun]
  | ok read =>
    obtain ⟨loaded, existing⟩ := read
    rw [hload] at hleaves
    rw [(runOn_of_leaves (.extract a) hleaves).1, ExtractArguments.leave]
    split
    · rfl
    · obtain ⟨n, -, hreceived, -⟩ := (a.report fs loaded.settings existing).write_spec hfs
        (a.reportDir loaded.settings)
      exact hreceived.workingDirectory

/-- Writing the default settings first changes nothing about an extraction that finds none. -/
theorem extract_after_init (fs : FileSystem) (hfs : fs.IsLinkFreeTree) (a : ExtractArguments)
    (loaded : Settings.Loaded) (hsettings : Settings.load fs a.root = .ok loaded)
    (hdefault : loaded.file = none)
    (hkeys : ∀ path ∈ a.existingPath? loaded.settings,
      ¬ fs.OnPath path (fs.workingDirectory ++ [Settings.fileName]))
    (hdir : ¬ fs.OnPath (a.reportDir loaded.settings) (fs.workingDirectory ++ [Settings.fileName]))
    (made : Effects) (hinit : runOn fs (some .init) = (.ok .success, made)) :
    let alone := runOn fs (some (.extract a))
    let after := runOn made.files (some (.extract a))
    after.1 = alone.1 ∧ after.2.stdout = alone.2.stdout ∧
      (∀ name ∈ Report.fileNames,
        after.2.files.read (Path.join (a.reportDir loaded.settings) name) =
          alone.2.files.read (Path.join (a.reportDir loaded.settings) name)) ∧
      ∀ loc, loc ≠ fs.workingDirectory ++ [Settings.fileName] →
        after.2.files.get? loc = alone.2.files.get? loc := by
  obtain ⟨hmissing, hwrite⟩ := of_runOn_init_success hinit
  obtain ⟨hnone, hmade⟩ := writeText_of_not_pathExists hfs.linkFree (by decide) hmissing hwrite
  have hsame : SameBut (· = fs.workingDirectory ++ [Settings.fileName]) fs made.files := by
    rw [hmade]
    exact sameBut_set (.inl hnone) _
  have hcontent : made.files.get? (fs.workingDirectory ++ [Settings.fileName]) =
      some (.file (Settings.defaultText ++ "\n").toUTF8) := by
    rw [hmade, get?_set (by simp), if_pos rfl]
  have hfs' : made.files.IsLinkFreeTree := hfs.of_write hwrite
  obtain ⟨hfind, hs⟩ := Settings.find?_of_load hsettings hdefault
  obtain ⟨file, hsettings'⟩ := Settings.load_of_sameBut hfs.linkFree hsame
    (by rw [List.getLast?_concat]; decide) hcontent hfind
  obtain ⟨s, file₀⟩ := loaded
  dsimp only at hs hkeys hdir ⊢
  rw [← hs] at hsettings'
  have haggregate : a.aggregate made.files s = a.aggregate fs s := by
    refine aggregate_eq_of_sameBut hfs hfs' hsame ?_ a s
    rintro loc rfl
    exact ⟨Settings.fileName, List.getLast?_concat, by decide⟩
  have hfiles : ∀ name ∈ Report.fileNames, ¬ fs.OnPath (Path.join (a.reportDir s) name)
      (fs.workingDirectory ++ [Settings.fileName]) := by
    have hnames : ∀ name ∈ Report.fileNames, IsName name ∧ name ≠ Settings.fileName := by decide
    intro name hname
    exact not_onPath_join_name (hnames name hname).1 (hnames name hname).2 hdir
  obtain ⟨hstatus, hstdout, hleft⟩ := runOn_extract_agree (hsame.agreeOff hfs.linkFree) haggregate
    hdir hfiles hsettings hsettings' hkeys
  refine ⟨hstatus, hstdout, fun name hname => hleft.read_eq ?_, hleft.get?⟩
  exact mt (onPath_congr (workingDirectory_runOn_extract hfs.linkFree a) _ _).1 (hfiles name hname)

def plainProject : FileSystem where
  entries := [(["w"], .directory), (["w", "src"], .directory),
    (["w", "src", "a.ts"], .file "t('k');".toUTF8), (["w", "src", "known.json"], .file "[]".toUTF8)]
  workingDirectory := ["w"]

def plainArguments : ExtractArguments :=
  { sourceRoot := some "src", outputDir := some "out/i18n", existingKeys := some "src/known.json" }

def plainMade : Effects := (runOn plainProject (some .init)).2

theorem extract_after_init_plainProject :
    runOn plainProject (some .init) = (.ok .success, plainMade) ∧
      Settings.find? plainMade.files "src" = some Settings.fileName ∧
      (runOn plainMade.files (some (.extract plainArguments))).1 =
        (runOn plainProject (some (.extract plainArguments))).1 ∧
      (runOn plainMade.files (some (.extract plainArguments))).2.stdout =
        (runOn plainProject (some (.extract plainArguments))).2.stdout ∧
      ∀ name ∈ Report.fileNames,
        (runOn plainMade.files (some (.extract plainArguments))).2.files.read
            (Path.join "out/i18n" name) =
          (runOn plainProject (some (.extract plainArguments))).2.files.read
            (Path.join "out/i18n" name) := by
  have hinit : runOn plainProject (some .init) = (.ok .success, plainMade) :=
    Prod.ext (by decide +kernel) (by rw [plainMade])
  obtain ⟨hstatus, hstdout, hfiles, -⟩ := extract_after_init plainProject
    ⟨by decide, linkFree_of_entries (by decide)⟩ plainArguments ⟨{}, none⟩ (by decide +kernel) rfl
    (by decide +kernel) (by decide +kernel) plainMade hinit
  exact ⟨hinit, by decide +kernel, hstatus, hstdout, hfiles⟩

end Terminal

end MessageKeys

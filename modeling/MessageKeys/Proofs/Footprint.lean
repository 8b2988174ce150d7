import MessageKeys.Proofs.Changes
import MessageKeys.Proofs.ReportFiles
import MessageKeys.Proofs.Runs

namespace MessageKeys

namespace FileSystem

theorem writeText_join_eq_ok_iff {fs fs' : FileSystem} (hfs : fs.LinkFree) (dir : String)
    {name text : String} (hname : IsName name) :
    fs.writeText (Path.join dir name) text = .ok fs' ↔
      fs.Reachable dir ∧ fs.get? (fs.destination dir) = some .directory ∧
        fs.IsPlain (fs.destination dir ++ [name]) ∧
        fs' = fs.set (fs.destination dir ++ [name]) (.file text.toUTF8) := by
  have hresolve : ∀ loc, fs.resolve (Path.join dir name) = .ok loc ↔
      (fs.Reachable dir ∧ fs.get? (fs.destination dir) = some .directory) ∧
        loc = fs.destination dir ++ [name] := by
    intro loc
    rw [resolve, locate_eq_ok_iff hfs, reachable_join_name hname, destination_join_name hname]
    simp [join_ne_empty dir hname.2.1]
  rw [writeText, write_eq_ok_iff]
  simp only [hresolve]
  constructor
  · rintro ⟨loc, ⟨⟨hreach, hdir⟩, rfl⟩, hplain, rfl⟩
    exact ⟨hreach, hdir, hplain, rfl⟩
  · rintro ⟨hreach, hdir, hplain, rfl⟩
    exact ⟨_, ⟨⟨hreach, hdir⟩, rfl⟩, hplain, rfl⟩

theorem writeText_of_not_pathExists {fs fs' : FileSystem} (hfs : fs.LinkFree) {name text : String}
    (hname : IsName name) (hmissing : fs.pathExists name = false)
    (h : fs.writeText name text = .ok fs') :
    fs.get? (fs.workingDirectory ++ [name]) = none ∧
      fs' = fs.set (fs.workingDirectory ++ [name]) (.file text.toUTF8) := by
  have hjoin : Path.join "" name = name := by simp [Path.join]
  have hdest := destination_join_name hname fs ""
  have hwrite : fs.writeText (Path.join "" name) text = .ok fs' ↔ _ :=
    writeText_join_eq_ok_iff hfs "" hname
  have hfile : fs.Reachable (Path.join "" name) ↔ _ := reachable_join_name hname
  rw [hjoin, destination_empty] at hdest hwrite hfile
  obtain ⟨hreach, hdir, -, hset⟩ := hwrite.1 h
  refine ⟨?_, hset⟩
  by_contra hsome
  rw [Bool.eq_false_iff, Ne, pathExists_iff hfs, hdest] at hmissing
  exact hmissing ⟨hname.2.1, hfile.2 ⟨hreach, hdir⟩, Option.isSome_iff_ne_none.2 hsome⟩

/-- Files were put into a directory, each with its whole content. Besides, at most directories on
the way there were made. -/
structure Received (dir : String) (files : List (String × String)) (fs fs' : FileSystem) : Prop where
  workingDirectory : fs'.workingDirectory = fs.workingDirectory
  content : ∀ file ∈ files,
    fs'.get? (fs.destination dir ++ [file.1]) = some (.file file.2.toUTF8)
  wasPlain : ∀ file ∈ files, fs.IsPlain (fs.destination dir ++ [file.1])
  elsewhere : ∀ loc, (∀ file ∈ files, loc ≠ fs.destination dir ++ [file.1]) →
    fs'.get? loc = fs.get? loc ∨
      fs.OnPath dir loc ∧ fs.get? loc = none ∧ fs'.get? loc = some .directory

end FileSystem

open FileSystem

namespace Report

def OneOf (files : List (String × String)) (dir loc : Location) : Prop :=
  ∃ file ∈ files, loc = dir ++ [file.1]

/-- Some of the files are written, from the first on, and all of them if none fails. -/
theorem writeFiles_spec {fs : FileSystem} (hfs : fs.LinkFree) (dir : String)
    {files : List (String × String)} (hnames : ∀ file ∈ files, IsName file.1)
    (hnodup : (files.map (·.1)).Nodup) :
    ∃ n ≤ files.length,
      SameBut (OneOf (files.take n) (fs.destination dir)) fs (writeFiles fs dir files).1 ∧
      (∀ file ∈ files.take n, (writeFiles fs dir files).1.get? (fs.destination dir ++ [file.1]) =
        some (.file file.2.toUTF8)) ∧
      (n = files.length ↔ ∃ written, (writeFiles fs dir files).2 = .ok written) := by
  induction files generalizing fs with
  | nil => exact ⟨0, le_rfl, .refl _ fs, by simp, iff_of_true rfl ⟨[], rfl⟩⟩
  | cons file rest ih =>
    obtain ⟨name, text⟩ := file
    rw [List.map_cons, List.nodup_cons] at hnodup
    have hname : IsName name := hnames _ List.mem_cons_self
    rw [writeFiles.eq_def]
    dsimp only
    cases hw : fs.writeText (Path.join dir name) text with
    | error e => exact ⟨0, Nat.zero_le _, .refl _ fs, by simp, by simp⟩
    | ok fs₁ =>
      obtain ⟨-, -, hplain, rfl⟩ := (writeText_join_eq_ok_iff hfs dir hname).1 hw
      have hset := sameBut_set hplain text.toUTF8
      obtain ⟨n, hn, hsame, hcontent, hall⟩ := ih (hfs.of_sameBut hset)
        (fun f hf => hnames f (List.mem_cons_of_mem _ hf)) hnodup.2
      rw [hset.destination_eq] at hsame hcontent
      dsimp only
      refine ⟨n + 1, Nat.succ_le_succ hn, ?_, ?_, ?_⟩
      · refine (hset.mono ?_).trans (hsame.mono ?_)
        · rintro loc rfl
          exact ⟨_, List.mem_cons_self, rfl⟩
        · rintro loc ⟨f, hf, rfl⟩
          exact ⟨f, List.mem_cons_of_mem _ hf, rfl⟩
      · rw [List.take_succ_cons, List.forall_mem_cons]
        refine ⟨?_, hcontent⟩
        -- The files that follow have other names.
        rw [hsame.get?_eq_of_not, get?_set hplain.ne_nil, if_pos rfl]
        rintro ⟨f, hf, heq⟩
        refine hnodup.1 (List.mem_map.2 ⟨f, List.mem_of_mem_take hf, ?_⟩)
        simpa [eq_comm] using heq
      · rw [List.length_cons, Nat.succ_inj, hall]
        rcases (writeFiles _ dir rest).2 with _ | _ <;> simp [Except.map]

theorem isName_of_mem_files {r : Report} {file : String × String} (h : file ∈ r.files) :
    IsName file.1 := by
  have hnames : ∀ name ∈ fileNames, IsName name := by decide
  exact hnames file.1 (List.mem_map_of_mem h)

theorem nodup_files (r : Report) : (r.files.map (·.1)).Nodup :=
  (by decide : fileNames.Nodup)

/-- What writing a report leaves behind, also if it fails. -/
theorem write_spec (r : Report) {fs : FileSystem} (hfs : fs.LinkFree) (dir : String) :
    ∃ n ≤ r.files.length,
      Received dir (r.files.take n) fs (r.write fs dir).1 ∧
      (n = r.files.length ↔ ∃ written, (r.write fs dir).2 = .ok written) := by
  have hgrown := makeDirectoryAll_grownBy hfs dir
  rw [write]
  rcases hmake : fs.makeDirectoryAll dir with ⟨fs₁, _ | ⟨⟩⟩
  · rw [hmake] at hgrown
    refine ⟨0, Nat.zero_le _, ⟨hgrown.workingDirectory, by simp, by simp, ?_⟩, ?_⟩
    · intro loc _
      exact hgrown.get? loc
    · exact iff_of_false (Nat.zero_ne_add_one 2) (by simp)
  · rw [hmake] at hgrown
    obtain ⟨n, hn, hsame, hcontent, hall⟩ := writeFiles_spec (hfs.of_grownBy hgrown) dir
      (fun _ => isName_of_mem_files (r := r)) r.nodup_files
    rw [hgrown.destination_eq] at hsame hcontent
    refine ⟨n, hn, ?_, hall⟩
    refine ⟨hsame.workingDirectory.trans hgrown.workingDirectory, hcontent, ?_, ?_⟩
    · intro file hfile
      refine hgrown.isPlain ?_
      rcases hsame.get? (fs.destination dir ++ [file.1]) with heq | ⟨-, hplain, -⟩
      · exact .inr ⟨_, heq.symm.trans (hcontent file hfile)⟩
      · exact hplain
    · intro loc hloc
      have hsame := hsame.get?_eq_of_not fun ⟨file, hfile, heq⟩ => hloc file hfile heq
      dsimp only
      rw [hsame]
      exact hgrown.get? loc

end Report

namespace Terminal

open Run

theorem runOn_of_leaves {fs fs' : FileSystem} (command : Command)
    {r : Except Problem CommandResult} (h : Leaves command.run { files := fs } r fs') :
    (runOn fs (some command)).2.files = fs' ∧
      ((∃ status, (runOn fs (some command)).1 = .ok status) ↔ ∃ result, r = .ok result) := by
  obtain ⟨stderr, events, hrun⟩ := h
  have hbind : runOn fs (some command) = ExceptT.run (command.run >>= _) { files := fs } := rfl
  rw [hbind, run_bind, hrun]
  cases r with
  | error p => simp
  | ok result => exact ⟨rfl, ⟨fun _ => ⟨result, rfl⟩, fun _ => ⟨result.exitStatus, rfl⟩⟩⟩

theorem finds_initCommand_of_exists {w : Effects}
    (h : w.files.pathExists Settings.fileName = true) :
    Finds initCommand w
      (.ok (.finish (.init ⟨false, some s!"{Settings.fileName} already exists"⟩) [] 0)) := by
  refine (finds_files w).bind fun stderr events => ?_
  rw [if_pos h]
  exact finds_pure _ _

section Missing

variable {w : Effects} (hmissing : w.files.pathExists Settings.fileName = false)
include hmissing

theorem finds_initCommand_of_error {e : FileError}
    (h : w.files.writeText Settings.fileName (Settings.defaultText ++ "\n") = .error e) :
    Finds initCommand w
      (.error ⟨[s!"Failed to write {Settings.fileName}"], some e.message⟩) := by
  refine (finds_files w).bind fun stderr events => ?_
  rw [if_neg (by simp [hmissing])]
  exact (leaves_change_of_eq (by simp only [h])).stop

theorem leaves_initCommand_of_ok {fs' : FileSystem}
    (h : w.files.writeText Settings.fileName (Settings.defaultText ++ "\n") = .ok fs') :
    Leaves initCommand w (.ok (.finish (.init ⟨true, none⟩) [] 0)) fs' := by
  refine (finds_files w).bind fun stderr events => ?_
  rw [if_neg (by simp [hmissing])]
  refine Leaves.bind (a := ()) (leaves_change_of_eq ?_) fun _ _ => finds_pure _ _
  simp only [h]

end Missing

theorem leaves_initCommand (w : Effects) :
    ∃ r fs', Leaves initCommand w r fs' ∧
      (fs' = w.files ∨ w.files.pathExists Settings.fileName = false ∧
        w.files.writeText Settings.fileName (Settings.defaultText ++ "\n") = .ok fs') := by
  cases hexists : w.files.pathExists Settings.fileName with
  | true => exact ⟨_, _, finds_initCommand_of_exists hexists, .inl rfl⟩
  | false =>
    cases hwrite : w.files.writeText Settings.fileName (Settings.defaultText ++ "\n") with
    | error e => exact ⟨_, _, finds_initCommand_of_error hexists hwrite, .inl rfl⟩
    | ok fs' => exact ⟨_, fs', leaves_initCommand_of_ok hexists hwrite, .inr ⟨rfl, rfl⟩⟩

/-- A run changes only what it may. -/
theorem runOn_changes_only (fs : FileSystem) (hfs : fs.LinkFree) (command : Option Command) :
    let result := (runOn fs command).1
    let left := (runOn fs command).2.files
    match command with
    | none => left = fs
    | some .init =>
      let loc := fs.workingDirectory ++ [Settings.fileName]
      left = fs ∨
        fs.get? loc = none ∧ left = fs.set loc (.file (Settings.defaultText ++ "\n").toUTF8)
    | some (.extract a) =>
      match a.load fs with
      | .error p => result = .error p ∧ left = fs
      | .ok (loaded, existing) =>
        if a.dryRun then left = fs
        else
          let report := a.report fs loaded.settings existing
          let dir := a.reportDir loaded.settings
          ∃ n ≤ report.files.length,
            Received dir (report.files.take n) fs left ∧
            (n = report.files.length ↔ ∃ written, (report.write fs dir).2 = .ok written) ∧
            (n = report.files.length ↔ ∃ status, result = .ok status) := by
  cases command with
  | none => rfl
  | some command =>
    cases command with
    | init =>
      obtain ⟨r, fs', hleaves, hfiles⟩ := leaves_initCommand { files := fs }
      obtain ⟨hleft, -⟩ := runOn_of_leaves .init hleaves
      dsimp only at hfiles ⊢
      rw [hleft]
      refine hfiles.imp_right fun ⟨hmissing, hwrite⟩ => ?_
      exact writeText_of_not_pathExists hfs (by decide) hmissing hwrite
    | extract a =>
      have hleaves := leaves_extractCommand a { files := fs }
      dsimp only at hleaves ⊢
      cases hload : a.load fs with
      | error p =>
        obtain ⟨stderr, events, hrun⟩ := runOn_extract_of_load_error hload
        simp [hrun]
      | ok read =>
        obtain ⟨loaded, existing⟩ := read
        rw [hload] at hleaves
        obtain ⟨hleft, hok⟩ := runOn_of_leaves (.extract a) hleaves
        dsimp only
        rw [hleft, hok, ExtractArguments.leave]
        split
        · rfl
        · obtain ⟨n, hn, hreceived, hall⟩ := (a.report fs loaded.settings existing).write_spec hfs
            (a.reportDir loaded.settings)
          refine ⟨n, hn, hreceived, hall, hall.trans ?_⟩
          dsimp only
          cases ((a.report fs loaded.settings existing).write fs (a.reportDir loaded.settings)).2
          · simp [inContext, Except.map]
          · simp [inContext, Except.map]

def blockedProject : FileSystem where
  entries := [(["w"], .directory), (["w", "out"], .directory),
    (["w", "out", Report.warningsFile], .directory), (["w", "a.ts"], .file "t('k')".toUTF8)]
  workingDirectory := ["w"]

def blockedArguments : ExtractArguments := { outputDir := some "new/../out" }

/-- It fails before the last file is written, and changes nothing else. -/
theorem runOn_changes_only_blockedProject :
    blockedProject.LinkFree ∧
      ∃ n < 3, Received "new/../out"
        ((blockedArguments.report blockedProject {} none).files.take n) blockedProject
        (runOn blockedProject (some (.extract blockedArguments))).2.files := by
  have hfs : blockedProject.LinkFree := linkFree_of_entries (by decide)
  have hload : blockedArguments.load blockedProject = .ok (⟨{}, none⟩, none) := by decide +kernel
  have hfails : (runOn blockedProject (some (.extract blockedArguments))).1.toBool = false := by
    decide +kernel
  have h := runOn_changes_only blockedProject hfs (some (.extract blockedArguments))
  simp only [hload] at h
  rw [if_neg (by decide)] at h
  obtain ⟨n, hn, hreceived, -, hall⟩ := h
  refine ⟨hfs, n, lt_of_le_of_ne hn fun heq => ?_, hreceived⟩
  obtain ⟨status, hok⟩ := hall.1 heq
  rw [hok] at hfails
  cases hfails

end Terminal

end MessageKeys

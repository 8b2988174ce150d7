import MessageKeys.Terminal.Run

namespace MessageKeys.Terminal

/-- Carried out after these effects, an action yields a value and leaves those. -/
def Run.Returns {α : Type} (x : Run α) (w : Effects) (a : α) (w' : Effects) : Prop :=
  ExceptT.run x w = (.ok a, w')

namespace Run

section Actions

variable {α β : Type}

theorem run_bind (x : Run α) (f : α → Run β) (w : Effects) :
    ExceptT.run (x >>= f) w =
      match ExceptT.run x w with
      | (.ok a, w₁) => ExceptT.run (f a) w₁
      | (.error p, w₁) => (.error p, w₁) := by
  change (match ExceptT.run x w with | (r, w₁) => (ExceptT.bindCont f r) w₁) = _
  rcases ExceptT.run x w with ⟨_ | _, _⟩ <;> rfl

theorem run_liftResult (r : Except Problem α) (w : Effects) :
    ExceptT.run (liftResult r) w = (r, w) := by
  cases r <;> rfl

theorem run_change (op : FileSystem → FileSystem × Except Problem α) (w : Effects) :
    ExceptT.run (change op) w = ((op w.files).2, { w with files := (op w.files).1 }) :=
  run_liftResult (op w.files).2 { w with files := (op w.files).1 }

/-- Carried out, an action comes to this result and leaves these files. Beyond that it only adds to
the messages and to the events. -/
def Leaves (x : Run α) (w : Effects) (r : Except Problem α) (fs : FileSystem) : Prop :=
  ∃ stderr events, ExceptT.run x w = (r, { w with files := fs, stderr, events })

/-- An action that comes to a result and changes no file. -/
def Finds (x : Run α) (w : Effects) (r : Except Problem α) : Prop := Leaves x w r w.files

theorem finds_pure (a : α) (w : Effects) : Finds (pure a) w (.ok a) := ⟨w.stderr, w.events, rfl⟩

theorem finds_files (w : Effects) : Finds files w (.ok w.files) := ⟨w.stderr, w.events, rfl⟩

theorem finds_log (events : List Log.Event) (w : Effects) : Finds (log events) w (.ok ()) :=
  ⟨w.stderr, w.events ++ events, rfl⟩

theorem finds_printError (s : Styled) (w : Effects) : Finds (printError s) w (.ok ()) :=
  ⟨w.stderr ++ s, w.events, rfl⟩

theorem finds_liftResult (r : Except Problem α) (w : Effects) : Finds (liftResult r) w r :=
  ⟨w.stderr, w.events, run_liftResult r w⟩

theorem leaves_change (op : FileSystem → FileSystem × Except Problem α) (w : Effects) :
    Leaves (change op) w (op w.files).2 (op w.files).1 :=
  ⟨w.stderr, w.events, run_change op w⟩

theorem leaves_change_of_eq {op : FileSystem → FileSystem × Except Problem α} {w : Effects}
    {r : Except Problem α} {fs : FileSystem} (h : op w.files = (fs, r)) :
    Leaves (change op) w r fs := by
  have hchange := leaves_change op w
  rwa [h] at hchange

variable {x : Run α} {f : α → Run β} {w : Effects} {fs fs' : FileSystem}

theorem Leaves.stop {p : Problem} (hx : Leaves x w (.error p) fs) :
    Leaves (x >>= f) w (.error p) fs := by
  obtain ⟨stderr, events, hx⟩ := hx
  exact ⟨stderr, events, by rw [run_bind, hx]⟩

theorem Leaves.bind {a : α} {r : Except Problem β} (hx : Leaves x w (.ok a) fs)
    (hf : ∀ stderr events, Leaves (f a) { w with files := fs, stderr, events } r fs') :
    Leaves (x >>= f) w r fs' := by
  obtain ⟨stderr, events, hx⟩ := hx
  obtain ⟨stderr', events', ha⟩ := hf stderr events
  exact ⟨stderr', events', by rw [run_bind, hx]; exact ha⟩

theorem Finds.bind {a : α} {r : Except Problem β} (hx : Finds x w (.ok a))
    (hf : ∀ stderr events, Leaves (f a) { w with stderr, events } r fs') :
    Leaves (x >>= f) w r fs' :=
  Leaves.bind hx hf

end Actions

end Run

open Run

section Steps

variable (w : Effects)

theorem finds_loadSettings (root : String) :
    Finds (loadSettings root) w (Settings.load w.files root) := by
  refine (finds_files w).bind fun stderr events => ?_
  cases Settings.load w.files root with
  | error p => exact (finds_liftResult (.error p) _).stop
  | ok loaded =>
    refine (finds_liftResult (.ok loaded) _).bind fun _ _ => ?_
    dsimp only
    split
    · exact (finds_log _ _).bind fun _ _ => finds_pure loaded _
    · exact finds_pure loaded _

theorem finds_noteDefaults (verbose : Bool) (loaded : Settings.Loaded) :
    Finds (noteDefaults verbose loaded) w (.ok ()) := by
  unfold noteDefaults
  split
  · exact finds_printError _ w
  · exact finds_pure () w

theorem finds_loadExisting (path : Option String) :
    Finds (loadExisting path) w (path.mapM (Catalogue.load w.files)) :=
  (finds_files w).bind fun _ _ => finds_liftResult _ _

theorem finds_scan (root : String) (s : Settings) (verbose : Bool) :
    Finds (scan root s verbose) w
      (.ok (Scan.run w.files root s.includes s.ignores s.ignoreTestFiles)) := by
  refine (finds_files w).bind fun _ _ => (finds_log _ _).bind fun _ _ => ?_
  dsimp only
  split
  · exact (finds_printError _ _).bind fun _ _ => finds_pure _ _
  · exact finds_pure _ _

theorem finds_collect (paths : List String) :
    Finds (collect paths) w (.ok (Collect.extractFiles w.files paths)) :=
  (finds_files w).bind fun _ _ => (finds_log _ _).bind fun _ _ => finds_pure _ _

end Steps

namespace ExtractArguments

variable (a : ExtractArguments) (fs : FileSystem)

def load : Except Problem (Settings.Loaded × Option StringSet) :=
  (Settings.load fs a.root).bind fun loaded =>
    ((a.existingPath? loaded.settings).mapM (Catalogue.load fs)).bind fun existing =>
      .ok (loaded, existing)

variable (s : Settings) (existing : Option StringSet)

def scanned : StringSet :=
  (Scan.run fs (a.scanRoot s) s.includes s.ignores s.ignoreTestFiles).files

def aggregate : Aggregate := Collect.extractFiles fs (a.scanned fs s).toList

def report : Report where
  keys := (a.aggregate fs s).newKeys (existing.getD ∅)
  warnings := (a.aggregate fs s).warnings
  errors := (a.aggregate fs s).errors

/-- The files that are left, and which of them belong to the report. -/
def leave : FileSystem × Except Problem (List String) :=
  if a.dryRun then (fs, .ok [])
  else
    let (fs', result) := (a.report fs s existing).write fs (a.reportDir s)
    (fs', inContext s!"Failed to write report to {a.reportDir s}" result)

/-- What is to be said once these files are written. -/
def summary (written : List String) : ExtractSummary where
  keyCount := (a.aggregate fs s).keys.size
  newKeyCount := ((a.aggregate fs s).newKeys (existing.getD ∅)).length
  existingKeyCount := existing.map StringSet.size
  outputDir := a.reportDir s
  written := written
  dryRun := a.dryRun

def result (written : List String) : CommandResult :=
  .finish (.extract (a.summary fs s existing written)) (a.aggregate fs s).issues
    (a.aggregate fs s).filesChecked

end ExtractArguments

theorem load_eq_ok_iff {a : ExtractArguments} {fs : FileSystem} {loaded : Settings.Loaded}
    {existing : Option StringSet} :
    a.load fs = .ok (loaded, existing) ↔ Settings.load fs a.root = .ok loaded ∧
      (a.existingPath? loaded.settings).mapM (Catalogue.load fs) = .ok existing := by
  unfold ExtractArguments.load
  cases Settings.load fs a.root with
  | error p => simp [Except.bind]
  | ok l =>
    cases he : (a.existingPath? l.settings).mapM (Catalogue.load fs) with
    | error p =>
      simp only [Except.bind, he, Except.ok.injEq, reduceCtorEq, false_iff, not_and]
      rintro rfl
      simp [he]
    | ok e =>
      simp only [Except.bind, he, Except.ok.injEq, Prod.mk.injEq]
      refine and_congr_right ?_
      rintro rfl
      simp [he]

theorem leaves_leaveReport (a : ExtractArguments) (s : Settings) (existing : Option StringSet)
    (w : Effects) :
    Leaves (leaveReport a.dryRun (a.reportDir s) (a.report w.files s existing)) w
      (a.leave w.files s existing).2 (a.leave w.files s existing).1 := by
  unfold leaveReport ExtractArguments.leave
  split
  · exact finds_pure [] w
  · have hchange := leaves_change (fun fs =>
      let (fs, result) := (a.report w.files s existing).write fs (a.reportDir s)
      (fs, inContext s!"Failed to write report to {a.reportDir s}" result)) w
    dsimp only at hchange ⊢
    cases hr : inContext _ ((a.report w.files s existing).write w.files (a.reportDir s)).2 with
    | error p => exact (hr ▸ hchange).stop
    | ok written =>
      exact (hr ▸ hchange).bind fun _ _ => (finds_log _ _).bind fun _ _ => finds_pure _ _

/-- An extraction fails where it reads its settings or the known keys, or else comes to what it
leaves. -/
theorem leaves_extractCommand (a : ExtractArguments) (w : Effects) :
    match a.load w.files with
    | .error p => Finds (extractCommand a) w (.error p)
    | .ok (loaded, existing) =>
      let left := a.leave w.files loaded.settings existing
      Leaves (extractCommand a) w (left.2.map (a.result w.files loaded.settings existing))
        left.1 := by
  unfold ExtractArguments.load
  have hload := finds_loadSettings w a.root
  cases hl : Settings.load w.files a.root with
  | error p => exact (hl ▸ hload).stop
  | ok loaded =>
    rw [hl] at hload
    dsimp only [Except.bind]
    have hexisting := fun stderr events =>
      finds_loadExisting { w with stderr, events } (a.existingPath? loaded.settings)
    dsimp only at hexisting
    cases he : (a.existingPath? loaded.settings).mapM (Catalogue.load w.files) with
    | error p =>
      refine hload.bind fun _ _ => (finds_noteDefaults _ a.verbose loaded).bind fun _ _ => ?_
      exact (he ▸ hexisting _ _).stop
    | ok existing =>
      dsimp only
      refine hload.bind fun _ _ => (finds_noteDefaults _ a.verbose loaded).bind fun _ _ => ?_
      refine (he ▸ hexisting _ _).bind fun _ _ => (finds_scan _ _ _ _).bind fun _ _ => ?_
      refine (finds_collect _ _).bind fun stderr events => ?_
      have hleave := leaves_leaveReport a loaded.settings existing { w with stderr, events }
      dsimp only at hleave ⊢
      cases hw : (a.leave w.files loaded.settings existing).2 with
      | error p => exact (hw ▸ hleave).stop
      | ok written => exact (hw ▸ hleave).bind fun _ _ => finds_pure _ _

theorem inContext_eq_ok_iff {α : Type} {doing : String} {r : Except Problem α} {a : α} :
    inContext doing r = .ok a ↔ r = .ok a := by
  cases r <;> simp [inContext]

theorem leave_eq_ok_iff {a : ExtractArguments} {fs fs' : FileSystem} {s : Settings}
    {existing : Option StringSet} {written : List String} :
    a.leave fs s existing = (fs', .ok written) ↔
      if a.dryRun then fs' = fs ∧ written = []
      else (a.report fs s existing).write fs (a.reportDir s) = (fs', .ok written) := by
  unfold ExtractArguments.leave
  split
  · simp [eq_comm]
  · rcases (a.report fs s existing).write fs (a.reportDir s) with ⟨fs₁, r⟩
    simp [inContext_eq_ok_iff]

theorem extractCommand_returns {w w' : Effects} {a : ExtractArguments} {result : CommandResult}
    (h : Returns (extractCommand a) w result w') :
    ∃ (loaded : Settings.Loaded) (existing : Option StringSet) (written : List String),
      let s := loaded.settings
      let found := Scan.run w.files (a.scanRoot s) s.includes s.ignores s.ignoreTestFiles
      let aggregate := Collect.extractFiles w.files found.files.toList
      let newKeys := aggregate.newKeys (existing.getD ∅)
      let report : Report := ⟨newKeys, aggregate.warnings, aggregate.errors⟩
      Settings.load w.files a.root = .ok loaded ∧
        (a.existingPath? s).mapM (Catalogue.load w.files) = .ok existing ∧
        (if a.dryRun then w'.files = w.files ∧ written = []
          else report.write w.files (a.reportDir s) = (w'.files, .ok written)) ∧
        result = .finish (.extract ⟨aggregate.keys.size, newKeys.length,
          existing.map StringSet.size, a.reportDir s, written, a.dryRun⟩)
          aggregate.issues aggregate.filesChecked := by
  have hleaves := leaves_extractCommand a w
  cases hload : a.load w.files with
  | error p =>
    rw [hload] at hleaves
    obtain ⟨stderr, events, hrun⟩ := hleaves
    cases hrun.symm.trans h
  | ok read =>
    obtain ⟨loaded, existing⟩ := read
    rw [hload] at hleaves
    obtain ⟨stderr, events, hrun⟩ := hleaves
    rcases hleave : a.leave w.files loaded.settings existing with ⟨fs', r⟩
    rw [hleave] at hrun
    cases r with
    | error p => cases hrun.symm.trans h
    | ok written =>
      cases hrun.symm.trans h
      obtain ⟨hsettings, hexisting⟩ := load_eq_ok_iff.1 hload
      exact ⟨loaded, existing, written, hsettings, hexisting, leave_eq_ok_iff.1 hleave, rfl⟩

theorem runOn_extract_of_load_error {a : ExtractArguments} {fs : FileSystem} {p : Problem}
    (h : a.load fs = .error p) :
    ∃ stderr events, runOn fs (some (.extract a)) = (.error p, { files := fs, stderr, events }) := by
  have hleaves := leaves_extractCommand a { files := fs }
  rw [h] at hleaves
  exact hleaves.stop

theorem runOn_extract_of_leave_error {a : ExtractArguments} {fs fs' : FileSystem}
    {loaded : Settings.Loaded} {existing : Option StringSet} {p : Problem}
    (h : a.load fs = .ok (loaded, existing))
    (hl : a.leave fs loaded.settings existing = (fs', .error p)) :
    ∃ stderr events,
      runOn fs (some (.extract a)) = (.error p, { files := fs', stderr, events }) := by
  have hleaves := leaves_extractCommand a { files := fs }
  simp only [h, hl] at hleaves
  exact hleaves.stop

theorem runOn_extract_of_leave_ok {a : ExtractArguments} {fs fs' : FileSystem}
    {loaded : Settings.Loaded} {existing : Option StringSet} {written : List String}
    (h : a.load fs = .ok (loaded, existing))
    (hl : a.leave fs loaded.settings existing = (fs', .ok written)) :
    let r := a.result fs loaded.settings existing written
    ∃ stderr events, runOn fs (some (.extract a)) =
      (.ok r.exitStatus, { files := fs', stdout := (r.output a.verbose).stdout, stderr, events }) := by
  have hleaves := leaves_extractCommand a { files := fs }
  simp only [h, hl] at hleaves
  obtain ⟨stderr, events, hrun⟩ := hleaves
  refine ⟨stderr ++ [], events, ?_⟩
  change ExceptT.run (extractCommand a >>= _) _ = _
  rw [run_bind, hrun]
  rfl

/-- An extraction that succeeds has read all it needs and has left what it should. -/
theorem of_runOn_extract_ok {a : ExtractArguments} {fs : FileSystem} {status : ExitStatus}
    {w : Effects} (h : runOn fs (some (.extract a)) = (.ok status, w)) :
    ∃ loaded existing written,
      a.load fs = .ok (loaded, existing) ∧
      a.leave fs loaded.settings existing = (w.files, .ok written) ∧
      status = (a.result fs loaded.settings existing written).exitStatus ∧
      w.stdout = ((a.result fs loaded.settings existing written).output a.verbose).stdout := by
  cases hload : a.load fs with
  | error p =>
    obtain ⟨stderr, events, hrun⟩ := runOn_extract_of_load_error hload
    cases hrun.symm.trans h
  | ok read =>
    obtain ⟨loaded, existing⟩ := read
    rcases hleave : a.leave fs loaded.settings existing with ⟨fs', _ | written⟩
    · obtain ⟨stderr, events, hrun⟩ := runOn_extract_of_leave_error hload hleave
      cases hrun.symm.trans h
    · obtain ⟨stderr, events, hrun⟩ := runOn_extract_of_leave_ok hload hleave
      cases hrun.symm.trans h
      exact ⟨loaded, existing, written, rfl, hleave, rfl, rfl⟩

theorem returns_extractCommand {a : ExtractArguments} {fs fs' : FileSystem}
    {loaded : Settings.Loaded} {existing : Option StringSet} {written : List String}
    (h : a.load fs = .ok (loaded, existing))
    (hl : a.leave fs loaded.settings existing = (fs', .ok written)) :
    ∃ w, Returns (extractCommand a) { files := fs }
      (a.result fs loaded.settings existing written) w := by
  have hleaves := leaves_extractCommand a { files := fs }
  simp only [h, hl] at hleaves
  obtain ⟨stderr, events, hrun⟩ := hleaves
  exact ⟨_, hrun⟩

end MessageKeys.Terminal

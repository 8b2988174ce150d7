import MessageKeys.Proofs.Changes
import MessageKeys.Proofs.ReportFiles

namespace MessageKeys

namespace FileSystem

/-- Two file systems without links that agree everywhere but at one location. -/
structure AgreeOff (loc : Location) (fs fs' : FileSystem) : Prop where
  linkFree : fs.LinkFree
  linkFree' : fs'.LinkFree
  workingDirectory : fs'.workingDirectory = fs.workingDirectory
  get? : ∀ l, l ≠ loc → fs'.get? l = fs.get? l

theorem SameBut.agreeOff {loc : Location} {fs fs' : FileSystem} (hfs : fs.LinkFree)
    (h : SameBut (· = loc) fs fs') : AgreeOff loc fs fs' where
  linkFree := hfs
  linkFree' := hfs.of_sameBut h
  workingDirectory := h.workingDirectory
  get? _ hl := h.get?_eq_of_not hl

instance (fs : FileSystem) (path : String) (loc : Location) : Decidable (fs.OnPath path loc) :=
  decidable_of_iff (∃ ss ∈ (steps path).inits, loc = ss.foldl place (fs.start path))
    (by simp only [List.mem_inits, OnPath])

theorem onPath_congr {fs fs' : FileSystem} (h : fs'.workingDirectory = fs.workingDirectory)
    (path : String) (loc : Location) : fs'.OnPath path loc ↔ fs.OnPath path loc := by
  have hstart : fs'.start path = fs.start path := by rw [start, start, h]
  rw [OnPath, OnPath, hstart]

theorem onPath_of_withoutEndSlashes {fs : FileSystem} {path : String} {loc : Location}
    (h : fs.OnPath (withoutEndSlashes path) loc) : fs.OnPath path loc := by
  obtain ⟨ss, hss, rfl⟩ := h
  obtain ⟨n, hsteps⟩ := steps_withoutEndSlashes path
  refine ⟨ss, ?_, by rw [start_withoutEndSlashes]⟩
  rw [hsteps]
  exact hss.trans (List.prefix_append _ _)

/-- On the path to an entry of a directory are the places on the path to the directory, and the
entry. -/
theorem onPath_join_name {fs : FileSystem} {dir name : String} {loc : Location}
    (hname : IsName name) (h : fs.OnPath (Path.join dir name) loc) :
    fs.OnPath dir loc ∨ loc = fs.destination dir ++ [name] := by
  obtain ⟨ss, hss, rfl⟩ := h
  have hrel := hname.isAbsolute_eq_false
  rw [start_join fs dir hrel]
  have hsteps : ∃ ts, ts <+: steps dir ∧ steps (Path.join dir name) = ts ++ [name] := by
    by_cases hdir : dir = ""
    · subst hdir
      exact ⟨[], List.nil_prefix, by rw [Path.join, hrel]; exact hname.steps_eq⟩
    · obtain ⟨ts, hts, hjoin⟩ := steps_join_relative hdir hrel
      rw [hname.steps_eq] at hjoin
      refine ⟨ts, ?_, hjoin⟩
      rcases hts with hts | hts
      · rw [hts]
      · rw [hts]
        exact List.prefix_append _ _
  obtain ⟨ts, hts, hjoin⟩ := hsteps
  rw [hjoin] at hss
  rcases List.prefix_concat_iff.1 hss with rfl | hss
  · right
    rw [← destination_join_name hname fs dir, destination, hjoin, start_join fs dir hrel]
  · exact .inl ⟨ss, hss.trans hts, rfl⟩

theorem not_onPath_join_name {fs : FileSystem} {dir name other : String} {loc : Location}
    (hname : IsName name) (hne : name ≠ other) (h : ¬ fs.OnPath dir (loc ++ [other])) :
    ¬ fs.OnPath (Path.join dir name) (loc ++ [other]) := by
  intro hjoin
  rcases onPath_join_name hname hjoin with hdir | heq
  · exact h hdir
  · obtain ⟨-, hlast⟩ := List.append_inj' heq rfl
    exact hne (List.singleton_inj.1 hlast).symm

section AgreeOff

variable {loc : Location} {fs fs' : FileSystem} (h : AgreeOff loc fs fs')
include h

namespace AgreeOff

theorem descend_eq (followLast : Bool)
    (onLink onLink' : Location → String → List String → Except FileError Location)
    {l : Location} {ss : List String} (hoff : ∀ ts, ts <+: ss → ts.foldl place l ≠ loc) :
    fs'.descend followLast onLink' l ss = fs.descend followLast onLink l ss := by
  induction ss generalizing l with
  | nil => rfl
  | cons step rest ih =>
    have hget := h.get? l (hoff [] List.nil_prefix)
    have hlink : ∀ t, ¬ fs.MeetsLink l step t := fun t ht => h.linkFree _ t ht.2.2
    have hlink' : ∀ t, ¬ fs'.MeetsLink l step t := fun t ht => h.linkFree' _ t ht.2.2
    by_cases hdir : fs.get? l = some .directory
    · rw [descend_place hdir hlink, descend_place (hget.trans hdir) hlink']
      exact ih fun ts hts => hoff (step :: ts) ((List.prefix_cons_inj step).2 hts)
    · rw [descend, descend, hget]
      split
      · rfl
      next hdir' => exact absurd hdir' hdir
      · rfl

variable {path : String} (hpath : ¬ fs.OnPath path loc)
include hpath

theorem locate_eq (followLast : Bool) : fs'.locate followLast path = fs.locate followLast path := by
  have hstart : fs'.start path = fs.start path := by rw [start, start, h.workingDirectory]
  rw [locate, locate, hstart]
  exact congrArg _ (h.descend_eq _ _ _ fun ts hts heq => hpath ⟨ts, hts, heq.symm⟩)

theorem get?_of_locate {followLast : Bool} {l : Location}
    (hl : fs.locate followLast path = .ok l) : fs'.get? l = fs.get? l := by
  obtain ⟨-, -, rfl⟩ := (locate_eq_ok_iff h.linkFree).1 hl
  exact h.get? _ fun heq => hpath (heq ▸ onPath_destination fs path)

theorem stat_eq : fs'.stat path = fs.stat path := by
  rw [stat, stat, resolve, resolve, h.locate_eq hpath]
  cases hl : fs.locate true path with
  | error e => rfl
  | ok l => simp only [bind, Except.bind, h.get?_of_locate hpath hl]

theorem read_eq : fs'.read path = fs.read path := by
  rw [read, read, h.stat_eq hpath]

theorem readText_eq : fs'.readText path = fs.readText path := by
  rw [readText, readText, h.read_eq hpath]

theorem isDirectory_eq : fs'.isDirectory path = fs.isDirectory path := by
  rw [isDirectory, isDirectory, h.stat_eq hpath]

end AgreeOff

theorem AgreeOff.set {l : Location} (hl : l ≠ []) {e : Entry} (he : e.isLink = false) :
    AgreeOff loc (fs.set l e) (fs'.set l e) := by
  have hfree : ∀ {f : FileSystem}, f.LinkFree → (f.set l e).LinkFree := by
    intro f hf k target hk
    rw [get?_set hl] at hk
    split at hk
    · cases hk
      cases he
    · exact hf k target hk
  refine ⟨hfree h.linkFree, hfree h.linkFree', h.workingDirectory, fun k hk => ?_⟩
  rw [get?_set hl, get?_set hl, h.get? k hk]

end AgreeOff

/-- Two outcomes of an operation: the same error, or file systems that agree. -/
inductive OutcomesAgree (loc : Location) :
    Except FileError FileSystem → Except FileError FileSystem → Prop
  | error (e : FileError) : OutcomesAgree loc (.error e) (.error e)
  | ok {fs fs' : FileSystem} : AgreeOff loc fs fs' → OutcomesAgree loc (.ok fs) (.ok fs')

/-- Two outcomes of an operation that also leaves something behind when it fails. -/
def LeavingsAgree {α : Type} (loc : Location) (left left' : FileSystem × α) : Prop :=
  AgreeOff loc left.1 left'.1 ∧ left'.2 = left.2

section AgreeOff

variable {loc : Location} {fs fs' : FileSystem} (h : AgreeOff loc fs fs') {path : String}
  (hpath : ¬ fs.OnPath path loc)
include h hpath

theorem AgreeOff.writeText (text : String) :
    OutcomesAgree loc (fs.writeText path text) (fs'.writeText path text) := by
  rw [FileSystem.writeText, FileSystem.writeText, write, write, resolve, resolve,
    h.locate_eq hpath]
  cases hl : fs.locate true path with
  | error e => exact .error e
  | ok l =>
    simp only [bind, Except.bind, h.get?_of_locate hpath hl]
    have hset : l ≠ [] → OutcomesAgree loc (.ok (fs.set l (.file text.toUTF8)))
        (.ok (fs'.set l (.file text.toUTF8))) := fun hne => .ok (h.set hne rfl)
    have hroot : fs.get? l ≠ some .directory → l ≠ [] := by
      rintro hget rfl
      exact hget rfl
    cases hget : fs.get? l with
    | none => exact hset (hroot (by simp [hget]))
    | some e =>
      cases e with
      | directory => exact .error _
      | link target => exact .error _
      | file content => exact hset (hroot (by simp [hget]))

theorem AgreeOff.makeDirectory :
    OutcomesAgree loc (fs.makeDirectory path) (fs'.makeDirectory path) := by
  have hpath' : ¬ fs.OnPath (withoutEndSlashes path) loc := mt onPath_of_withoutEndSlashes hpath
  rw [FileSystem.makeDirectory, FileSystem.makeDirectory, h.locate_eq hpath']
  cases hl : fs.locate false (withoutEndSlashes path) with
  | error e => exact .error e
  | ok l =>
    simp only [bind, Except.bind, h.get?_of_locate hpath' hl]
    cases hget : fs.get? l with
    | some e => exact .error _
    | none =>
      refine .ok (h.set ?_ rfl)
      rintro rfl
      cases hget

theorem AgreeOff.unlessDirectory (e : FileError) :
    LeavingsAgree loc (fs, if fs.isDirectory path then Except.ok () else .error e)
      (fs', if fs'.isDirectory path then Except.ok () else .error e) :=
  ⟨h, by rw [h.isDirectory_eq hpath]⟩

end AgreeOff

theorem workingDirectory_of_writeText {fs fs' : FileSystem} {path text : String}
    (h : fs.writeText path text = .ok fs') : fs'.workingDirectory = fs.workingDirectory := by
  obtain ⟨loc, -, -, rfl⟩ := write_eq_ok_iff.1 h
  rfl

theorem workingDirectory_makeDirectories {fs : FileSystem} (hfs : fs.LinkFree)
    (paths : List String) :
    (fs.makeDirectories paths).1.workingDirectory = fs.workingDirectory := by
  have hgrown : GrownBy (fun _ => True) fs (fs.makeDirectories paths).1 :=
    makeDirectories_grownBy hfs fun _ _ => trivial
  exact hgrown.workingDirectory

theorem AgreeOff.makeDirectories {loc : Location} {fs fs' : FileSystem} (h : AgreeOff loc fs fs')
    {paths : List String} (hpaths : ∀ p ∈ paths, ¬ fs.OnPath p loc) :
    LeavingsAgree loc (fs.makeDirectories paths) (fs'.makeDirectories paths) := by
  induction paths with
  | nil => exact ⟨h, rfl⟩
  | cons path around ih =>
    rw [List.forall_mem_cons] at hpaths
    have hmake := h.makeDirectory hpaths.1
    rw [FileSystem.makeDirectories, FileSystem.makeDirectories]
    generalize fs.makeDirectory path = made at hmake ⊢
    generalize fs'.makeDirectory path = made' at hmake ⊢
    cases hmake with
    | ok hmade => exact ⟨hmade, rfl⟩
    | error e =>
      by_cases he : e = .notFound
      · subst he
        -- What is around is made first, which keeps the agreement; then the path is tried again.
        have haround := ih hpaths.2
        have hdir := workingDirectory_makeDirectories h.linkFree around
        rcases hg : fs.makeDirectories around with ⟨g, r⟩
        rcases hg' : fs'.makeDirectories around with ⟨g', r'⟩
        rw [hg] at haround hdir
        rw [hg'] at haround
        obtain ⟨hagree, rfl⟩ := haround
        have hoff : ¬ g.OnPath path loc := mt (onPath_congr hdir path loc).1 hpaths.1
        have hmake := hagree.makeDirectory hoff
        dsimp only at hmake ⊢
        cases r' with
        | error e => exact ⟨hagree, rfl⟩
        | ok done =>
          dsimp only
          generalize g.makeDirectory path = made at hmake ⊢
          generalize g'.makeDirectory path = made' at hmake ⊢
          cases hmake with
          | ok hmade => exact ⟨hmade, rfl⟩
          | error e => exact hagree.unlessDirectory hoff e
      · have hother := h.unlessDirectory hpaths.1 e
        cases e with
        | notFound => exact absurd rfl he
        | _ => exact hother

theorem AgreeOff.makeDirectoryAll {loc : Location} {fs fs' : FileSystem} (h : AgreeOff loc fs fs')
    {path : String} (hpath : ¬ fs.OnPath path loc) :
    LeavingsAgree loc (fs.makeDirectoryAll path) (fs'.makeDirectoryAll path) :=
  h.makeDirectories fun _ hp hon => hpath (onPath_of_mem_ancestors hp hon)

end FileSystem

open FileSystem

namespace Report

theorem writeFiles_agree {loc : Location} {fs fs' : FileSystem} (h : AgreeOff loc fs fs')
    {dir : String} {files : List (String × String)}
    (hfiles : ∀ file ∈ files, ¬ fs.OnPath (Path.join dir file.1) loc) :
    LeavingsAgree loc (writeFiles fs dir files) (writeFiles fs' dir files) := by
  induction files generalizing fs fs' with
  | nil => exact ⟨h, rfl⟩
  | cons file rest ih =>
    obtain ⟨name, text⟩ := file
    rw [List.forall_mem_cons] at hfiles
    have hwrite := h.writeText hfiles.1 text
    have hdir : ∀ g, fs.writeText (Path.join dir name) text = .ok g →
        g.workingDirectory = fs.workingDirectory := fun _ => workingDirectory_of_writeText
    rw [writeFiles.eq_def, writeFiles.eq_def]
    dsimp only at hwrite ⊢
    generalize fs.writeText (Path.join dir name) text = written at hwrite hdir ⊢
    generalize fs'.writeText (Path.join dir name) text = written' at hwrite ⊢
    cases hwrite with
    | error e => exact ⟨h, rfl⟩
    | ok hagree =>
      obtain ⟨hrest, hresult⟩ := ih hagree fun file hfile =>
        mt (onPath_congr (hdir _ rfl) _ _).1 (hfiles.2 file hfile)
      exact ⟨hrest, congrArg (Except.map (Path.join dir name :: ·)) hresult⟩

/-- A report is written the same way where its directory and its files are apart from the
location. -/
theorem write_agree (r : Report) {loc : Location} {fs fs' : FileSystem} (h : AgreeOff loc fs fs')
    {dir : String} (hdir : ¬ fs.OnPath dir loc)
    (hfiles : ∀ name ∈ fileNames, ¬ fs.OnPath (Path.join dir name) loc) :
    LeavingsAgree loc (r.write fs dir) (r.write fs' dir) := by
  have hmake := h.makeDirectoryAll hdir
  have hsame := (makeDirectoryAll_grownBy h.linkFree dir).workingDirectory
  rw [write, write]
  rcases hg : fs.makeDirectoryAll dir with ⟨g, made⟩
  rcases hg' : fs'.makeDirectoryAll dir with ⟨g', made'⟩
  rw [hg] at hmake hsame
  rw [hg'] at hmake
  obtain ⟨hagree, rfl⟩ := hmake
  cases made' with
  | error e => exact ⟨hagree, rfl⟩
  | ok done =>
    refine writeFiles_agree hagree fun file hfile => ?_
    exact mt (onPath_congr hsame _ _).1 (hfiles file.1 (List.mem_map_of_mem hfile))

end Report

end MessageKeys

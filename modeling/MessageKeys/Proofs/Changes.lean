import MessageKeys.Proofs.LinkFree

namespace MessageKeys.FileSystem

/-- Two file systems with the same directories and links, and with the same files but for some
locations. -/
structure SameBut (changed : Location → Prop) (fs fs' : FileSystem) : Prop where
  workingDirectory : fs'.workingDirectory = fs.workingDirectory
  get? : ∀ loc, fs'.get? loc = fs.get? loc ∨ changed loc ∧ fs.IsPlain loc ∧ fs'.IsPlain loc
  entries : ∀ entry ∈ fs.entries,
    entry ∈ fs'.entries ∨ changed entry.1 ∧ ∃ content, entry.2 = .file content
  newEntries : ∀ entry ∈ fs'.entries,
    entry ∈ fs.entries ∨ changed entry.1 ∧ ∃ content, entry.2 = .file content

section SameBut

variable {changed changed' : Location → Prop} {fs fs' fs'' : FileSystem}

theorem IsPlain.congr {loc : Location} (h : fs.IsPlain loc) (heq : fs'.get? loc = fs.get? loc) :
    fs'.IsPlain loc := by
  unfold IsPlain
  rwa [heq]

theorem SameBut.refl (changed : Location → Prop) (fs : FileSystem) : SameBut changed fs fs :=
  ⟨rfl, fun _ => .inl rfl, fun _ h => .inl h, fun _ h => .inl h⟩

theorem SameBut.symm (h : SameBut changed fs fs') : SameBut changed fs' fs where
  workingDirectory := h.workingDirectory.symm
  get? loc := (h.get? loc).imp Eq.symm fun ⟨hc, hp, hp'⟩ => ⟨hc, hp', hp⟩
  entries := h.newEntries
  newEntries := h.entries

theorem SameBut.mono (h : SameBut changed fs fs') (himp : ∀ loc, changed loc → changed' loc) :
    SameBut changed' fs fs' where
  workingDirectory := h.workingDirectory
  get? loc := (h.get? loc).imp_right (.imp_left (himp loc))
  entries entry he := (h.entries entry he).imp_right (.imp_left (himp entry.1))
  newEntries entry he := (h.newEntries entry he).imp_right (.imp_left (himp entry.1))

theorem SameBut.trans (h : SameBut changed fs fs') (h' : SameBut changed fs' fs'') :
    SameBut changed fs fs'' where
  workingDirectory := h'.workingDirectory.trans h.workingDirectory
  get? loc := by
    rcases h.get? loc with heq | ⟨hc, hp, hp'⟩
    · rcases h'.get? loc with heq' | ⟨hc, hp, hp'⟩
      · exact .inl (heq'.trans heq)
      · exact .inr ⟨hc, hp.congr heq.symm, hp'⟩
    · rcases h'.get? loc with heq' | ⟨-, -, hp''⟩
      · exact .inr ⟨hc, hp, hp'.congr heq'⟩
      · exact .inr ⟨hc, hp, hp''⟩
  entries entry he := (h.entries entry he).elim (h'.entries entry) .inr
  newEntries entry he := (h'.newEntries entry he).elim (h.newEntries entry) .inr

theorem mem_setEntry {loc : Location} {e : Entry} {entries : List (Location × Entry)}
    {entry : Location × Entry} (h : entry ∈ setEntry loc e entries) :
    entry ∈ entries ∨ entry = (loc, e) := by
  induction entries with
  | nil => exact .inr (List.mem_singleton.1 h)
  | cons first rest ih =>
    obtain ⟨l, old⟩ := first
    rw [setEntry] at h
    split at h
    next hl =>
      rcases List.mem_cons.1 h with rfl | h
      · exact .inr (by rw [hl])
      · exact .inl (List.mem_cons_of_mem _ h)
    · rcases List.mem_cons.1 h with rfl | h
      · exact .inl List.mem_cons_self
      · exact (ih h).imp_left (List.mem_cons_of_mem _)

theorem nodup_setEntry {loc : Location} {e : Entry} {entries : List (Location × Entry)}
    (h : (entries.map (·.1)).Nodup) : ((setEntry loc e entries).map (·.1)).Nodup := by
  induction entries with
  | nil => simp [setEntry]
  | cons first rest ih =>
    obtain ⟨l, old⟩ := first
    rw [setEntry]
    split
    · exact h
    next hl =>
      rw [List.map_cons, List.nodup_cons] at h ⊢
      refine ⟨fun hmem => ?_, ih h.2⟩
      obtain ⟨entry, hentry, heq⟩ := List.mem_map.1 hmem
      rcases mem_setEntry hentry with hold | rfl
      · exact h.1 (List.mem_map.2 ⟨entry, hold, heq⟩)
      · exact hl heq.symm

theorem mem_setEntry_of_mem {loc : Location} {e : Entry} {entries : List (Location × Entry)}
    {entry : Location × Entry} (h : entry ∈ entries) :
    entry ∈ setEntry loc e entries ∨ entry.1 = loc ∧ entries.lookup loc = some entry.2 := by
  induction entries with
  | nil => cases h
  | cons first rest ih =>
    obtain ⟨l, old⟩ := first
    rw [setEntry]
    split
    next hl =>
      subst hl
      rcases List.mem_cons.1 h with rfl | h
      · exact .inr ⟨rfl, by simp⟩
      · exact .inl (List.mem_cons_of_mem _ h)
    next hl =>
      rcases List.mem_cons.1 h with rfl | h
      · exact .inl List.mem_cons_self
      · refine (ih h).imp (List.mem_cons_of_mem _) (And.imp_right ?_)
        intro hlookup
        rw [List.lookup_cons, beq_eq_false_iff_ne.2 (Ne.symm hl)]
        exact hlookup

theorem sameBut_set {loc : Location} (hloc : fs.IsPlain loc) (content : ByteArray) :
    SameBut (· = loc) fs (fs.set loc (.file content)) where
  workingDirectory := rfl
  get? l := by
    rw [get?_set hloc.ne_nil]
    split
    next heq =>
      subst heq
      refine .inr ⟨rfl, hloc, .inr ⟨content, ?_⟩⟩
      rw [get?_set hloc.ne_nil, if_pos rfl]
    · exact .inl rfl
  entries entry he := by
    refine (mem_setEntry_of_mem he).imp_right (And.imp_right ?_)
    intro hlookup
    have hget : fs.get? loc = some entry.2 := by
      rwa [FileSystem.get?, if_neg (by simpa using hloc.ne_nil)]
    rcases hloc with hnone | ⟨c, hfile⟩
    · cases hnone.symm.trans hget
    · exact ⟨c, Option.some.inj (hget.symm.trans hfile)⟩
  newEntries entry he := by
    refine (mem_setEntry he).imp_right ?_
    rintro rfl
    exact ⟨rfl, content, rfl⟩

theorem IsPlain.get?_ne_directory {loc : Location} (h : fs.IsPlain loc) :
    fs.get? loc ≠ some .directory := by
  intro hdir
  rcases h with h | ⟨c, h⟩
  · cases h.symm.trans hdir
  · cases h.symm.trans hdir

theorem IsPlain.get?_ne_link {loc : Location} (h : fs.IsPlain loc) (target : String) :
    fs.get? loc ≠ some (.link target) := by
  intro hlink
  rcases h with h | ⟨c, h⟩
  · cases h.symm.trans hlink
  · cases h.symm.trans hlink

theorem LinkFree.of_sameBut (hfs : fs.LinkFree) (h : SameBut changed fs fs') : fs'.LinkFree := by
  intro loc target
  rcases h.get? loc with heq | ⟨-, -, hplain⟩
  · exact heq ▸ hfs loc target
  · exact hplain.get?_ne_link target

namespace SameBut

variable (h : SameBut changed fs fs')
include h

theorem directory_of {loc : Location} (hdir : fs.get? loc = some .directory) :
    fs'.get? loc = some .directory := by
  rcases h.get? loc with heq | ⟨-, hplain, -⟩
  · exact heq.trans hdir
  · exact absurd hdir hplain.get?_ne_directory

theorem start_eq (path : String) : fs'.start path = fs.start path := by
  rw [start, start, h.workingDirectory]

theorem destination_eq (path : String) : fs'.destination path = fs.destination path := by
  rw [destination, destination, h.start_eq]

theorem reachable {path : String} (hreach : fs.Reachable path) : fs'.Reachable path := by
  rw [Reachable, h.start_eq]
  exact hreach.mono fun l hl => h.directory_of hl

theorem reachable_iff {path : String} : fs'.Reachable path ↔ fs.Reachable path :=
  ⟨h.symm.reachable, h.reachable⟩

theorem get?_eq_of_not {loc : Location} (hloc : ¬ changed loc) : fs'.get? loc = fs.get? loc :=
  (h.get? loc).resolve_right fun hc => hloc hc.1

variable (hfs : fs.LinkFree)
include hfs

theorem isDirectory_eq (path : String) : fs'.isDirectory path = fs.isDirectory path := by
  rw [Bool.eq_iff_iff, isDirectory_iff (hfs.of_sameBut h), isDirectory_iff hfs, h.reachable_iff,
    h.destination_eq]
  exact and_congr_right fun _ => and_congr_right fun _ => ⟨h.symm.directory_of, h.directory_of⟩

end SameBut

end SameBut

theorem set_eq_self {fs : FileSystem} {loc : Location} {e : Entry} (hloc : loc ≠ [])
    (h : fs.get? loc = some e) : fs.set loc e = fs := by
  rw [get?, if_neg (by simpa using hloc)] at h
  have hentries : setEntry loc e fs.entries = fs.entries := by
    generalize fs.entries = entries at h
    induction entries with
    | nil => cases h
    | cons first rest ih =>
      obtain ⟨l, old⟩ := first
      rw [setEntry]
      rw [List.lookup_cons] at h
      split
      next hl =>
        subst hl
        rw [beq_self_eq_true] at h
        cases h
        rfl
      next hl =>
        rw [beq_eq_false_iff_ne.2 (Ne.symm hl)] at h
        rw [ih h]
  rw [set, hentries]

/-- Directories were added at some locations where nothing was. -/
structure GrownBy (added : Location → Prop) (fs fs' : FileSystem) : Prop where
  workingDirectory : fs'.workingDirectory = fs.workingDirectory
  get? : ∀ loc, fs'.get? loc = fs.get? loc ∨
    added loc ∧ fs.get? loc = none ∧ fs'.get? loc = some .directory

section GrownBy

variable {added : Location → Prop} {fs fs' fs'' : FileSystem}

theorem GrownBy.refl (added : Location → Prop) (fs : FileSystem) : GrownBy added fs fs :=
  ⟨rfl, fun _ => .inl rfl⟩

theorem GrownBy.mono {added' : Location → Prop} (h : GrownBy added fs fs')
    (himp : ∀ loc, added loc → added' loc) : GrownBy added' fs fs' where
  workingDirectory := h.workingDirectory
  get? loc := (h.get? loc).imp_right (.imp_left (himp loc))

theorem GrownBy.trans (h : GrownBy added fs fs') (h' : GrownBy added fs' fs'') :
    GrownBy added fs fs'' where
  workingDirectory := h'.workingDirectory.trans h.workingDirectory
  get? loc := by
    rcases h'.get? loc with heq' | ⟨hadded, hnone, hdir⟩
    · rw [heq']
      exact h.get? loc
    · rcases h.get? loc with heq | ⟨-, -, hdir'⟩
      · exact .inr ⟨hadded, heq ▸ hnone, hdir⟩
      · cases hnone.symm.trans hdir'

theorem grownBy_set {loc : Location} (hnone : fs.get? loc = none) :
    GrownBy (· = loc) fs (fs.set loc .directory) where
  workingDirectory := rfl
  get? l := by
    have hloc : loc ≠ [] := by
      rintro rfl
      cases hnone
    rw [get?_set hloc]
    split
    next heq => exact .inr ⟨heq, heq ▸ hnone, rfl⟩
    · exact .inl rfl

theorem LinkFree.of_grownBy (hfs : fs.LinkFree) (h : GrownBy added fs fs') : fs'.LinkFree := by
  intro loc target hlink
  rcases h.get? loc with heq | ⟨-, -, hdir⟩
  · exact hfs loc target (heq ▸ hlink)
  · cases hdir.symm.trans hlink

theorem GrownBy.destination_eq (h : GrownBy added fs fs') (path : String) :
    fs'.destination path = fs.destination path := by
  rw [destination, destination, start, start, h.workingDirectory]

theorem GrownBy.isPlain (h : GrownBy added fs fs') {loc : Location} (hplain : fs'.IsPlain loc) :
    fs.IsPlain loc := by
  rcases h.get? loc with heq | ⟨-, -, hdir⟩
  · exact hplain.congr heq.symm
  · exact absurd hdir hplain.get?_ne_directory

end GrownBy

theorem makeDirectory_eq_ok {fs fs' : FileSystem} (hfs : fs.LinkFree) {path : String}
    (h : fs.makeDirectory path = .ok fs') : GrownBy (· = fs.destination path) fs fs' := by
  obtain ⟨loc, hloc, h⟩ := bind_eq_ok_iff.1 h
  obtain ⟨-, -, rfl⟩ := (locate_eq_ok_iff hfs).1 hloc
  rw [destination_withoutEndSlashes] at h
  split at h
  · cases h
  next hnone =>
    cases h
    exact grownBy_set hnone

theorem makeDirectories_grownBy {fs : FileSystem} (hfs : fs.LinkFree) {added : Location → Prop}
    {paths : List String} (hadded : ∀ p ∈ paths, added (fs.destination p)) :
    GrownBy added fs (fs.makeDirectories paths).1 := by
  induction paths generalizing fs with
  | nil => exact .refl added fs
  | cons path around ih =>
    have hmake : ∀ {fs₁ fs₂ : FileSystem}, GrownBy added fs fs₁ → fs₁.makeDirectory path = .ok fs₂ →
        GrownBy added fs fs₂ := by
      intro fs₁ fs₂ hgrown hmade
      have hstep := makeDirectory_eq_ok (hfs.of_grownBy hgrown) hmade
      rw [hgrown.destination_eq] at hstep
      exact hgrown.trans (hstep.mono fun loc h => h ▸ hadded path List.mem_cons_self)
    have haround := ih hfs fun p hp => hadded p (List.mem_cons_of_mem _ hp)
    rw [makeDirectories]
    split
    next hmade => exact hmake (.refl added fs) hmade
    · split
      next hfailed => exact hfailed ▸ haround
      next hdone =>
        rw [hdone] at haround
        split
        next hmade => exact hmake haround hmade
        · exact haround
    · exact .refl added fs

theorem makeDirectoryAll_grownBy {fs : FileSystem} (hfs : fs.LinkFree) (path : String) :
    GrownBy (fs.OnPath path) fs (fs.makeDirectoryAll path).1 :=
  makeDirectories_grownBy hfs fun p hp =>
    onPath_of_mem_ancestors hp (onPath_destination fs p)

theorem makeDirectoryAll_of_isDirectory {fs : FileSystem} (hfs : fs.LinkFree) {path : String}
    (h : fs.isDirectory path = true) : fs.makeDirectoryAll path = (fs, .ok ()) := by
  obtain ⟨hpath, hreach, hdir⟩ := (isDirectory_iff hfs).1 h
  have hne : withoutEndSlashes path ≠ "" := by
    intro hempty
    obtain ⟨n, hlist, hn⟩ := toList_withoutEndSlashes path
    rw [hempty, hn hempty] at hlist
    exact hpath (by simpa using hlist)
  have hloc : fs.locate false (withoutEndSlashes path) = .ok (fs.destination path) :=
    (locate_eq_ok_iff hfs).2
      ⟨hne, reachable_withoutEndSlashes hreach, (destination_withoutEndSlashes fs path).symm⟩
  have hmake : fs.makeDirectory path = .error .alreadyExists := by
    rw [makeDirectory, hloc]
    simp only [bind, Except.bind, hdir]
  rw [makeDirectoryAll, ancestors, if_neg (by simpa using hpath), makeDirectories, hmake]
  simp only [h, if_true]

theorem makeDirectoryAll_of_there {fs : FileSystem} (hfs : fs.LinkFree) {path : String}
    (h : path = "" ∨ fs.isDirectory path = true) : fs.makeDirectoryAll path = (fs, .ok ()) := by
  rcases h with rfl | h
  · rfl
  · exact makeDirectoryAll_of_isDirectory hfs h

end MessageKeys.FileSystem

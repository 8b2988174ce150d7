import MessageKeys.Proofs.PathSteps

namespace MessageKeys

def Entry.isLink : Entry → Bool
  | .link _ => true
  | _ => false

namespace FileSystem

/-- No entry is a link. -/
def LinkFree (fs : FileSystem) : Prop := ∀ loc target, fs.get? loc ≠ some (.link target)

def Passable (fs : FileSystem) : Location → List String → Prop
  | _, [] => True
  | loc, step :: rest => fs.get? loc = some .directory ∧ fs.Passable (place loc step) rest

theorem mem_of_get?_eq_some {fs : FileSystem} {loc : Location} {e : Entry} (hloc : loc ≠ [])
    (h : fs.get? loc = some e) : (loc, e) ∈ fs.entries := by
  rw [get?, if_neg (by simpa using hloc)] at h
  obtain ⟨before, after, hentries, -⟩ := List.lookup_eq_some_iff.1 h
  rw [hentries]
  simp

theorem linkFree_of_entries {fs : FileSystem}
    (h : ∀ entry ∈ fs.entries, entry.2.isLink = false) : fs.LinkFree := by
  intro loc target hget
  by_cases hloc : loc = []
  · subst hloc
    cases hget
  · cases h _ (mem_of_get?_eq_some hloc hget)

/-- The steps of a path can be taken one after the other. What is at its end is left open. -/
def Reachable (fs : FileSystem) (path : String) : Prop :=
  fs.Passable (fs.start path) (steps path)

theorem bind_eq_ok_iff {ε α β : Type} {x : Except ε α} {f : α → Except ε β} {b : β} :
    x >>= f = .ok b ↔ ∃ a, x = .ok a ∧ f a = .ok b := by
  cases x <;> simp [bind, Except.bind]

section Passable

variable {fs : FileSystem} {loc : Location} {ss ts : List String}

theorem passable_append :
    fs.Passable loc (ss ++ ts) ↔ fs.Passable loc ss ∧ fs.Passable (ss.foldl place loc) ts := by
  induction ss generalizing loc with
  | nil => simp [Passable]
  | cons s ss ih => rw [List.cons_append, Passable, Passable, ih, List.foldl_cons, and_assoc]

theorem passable_name {name : String} :
    fs.Passable loc [name] ↔ fs.get? loc = some .directory := by
  simp [Passable]

theorem passable_dots (hss : ∀ s ∈ ss, s = ".") (hloc : fs.get? loc = some .directory) :
    fs.Passable loc ss := by
  induction ss with
  | nil => trivial
  | cons s ss ih =>
    rw [List.forall_mem_cons] at hss
    obtain ⟨rfl, hss⟩ := hss
    exact ⟨hloc, ih hss⟩

theorem Passable.mono {fs' : FileSystem}
    (hdir : ∀ l, fs.get? l = some .directory → fs'.get? l = some .directory)
    (h : fs.Passable loc ss) : fs'.Passable loc ss := by
  induction ss generalizing loc with
  | nil => trivial
  | cons s ss ih => exact ⟨hdir loc h.1, ih h.2⟩

end Passable

section LinkFree

variable {fs : FileSystem} (hfs : fs.LinkFree) {followLast : Bool}
include hfs

theorem descend_eq_ok_iff
    {onLink : Location → String → List String → Except FileError Location}
    {l r : Location} {ss : List String} :
    fs.descend followLast onLink l ss = .ok r ↔ fs.Passable l ss ∧ r = ss.foldl place l := by
  induction ss generalizing l with
  | nil => simp [descend, Passable, eq_comm]
  | cons step rest ih =>
    have hlink : ∀ t, ¬ fs.MeetsLink l step t := fun t ht => hfs _ t ht.2.2
    rw [Passable, List.foldl_cons, and_assoc, ← ih]
    constructor
    · intro h
      have hl := directory_of_descend_ok h
      exact ⟨hl, descend_place hl hlink ▸ h⟩
    · rintro ⟨hl, h⟩
      rwa [descend_place hl hlink]

theorem descend_eq (followLast' : Bool)
    (onLink onLink' : Location → String → List String → Except FileError Location)
    (l : Location) (ss : List String) :
    fs.descend followLast onLink l ss = fs.descend followLast' onLink' l ss := by
  induction ss generalizing l with
  | nil => rfl
  | cons step rest ih =>
    have hlink : ∀ t, ¬ fs.MeetsLink l step t := fun t ht => hfs _ t ht.2.2
    by_cases hl : fs.get? l = some .directory
    · rw [descend_place hl hlink, descend_place hl hlink]
      exact ih _
    · rw [descend, descend]
      split
      · rfl
      next h => exact absurd h hl
      · rfl

theorem statLink_eq_stat (path : String) : fs.statLink path = fs.stat path := by
  have hlocate : fs.locate false path = fs.locate true path := by
    rw [locate, locate]
    exact congrArg _ (descend_eq hfs _ _ _ _ _)
  rw [statLink, hlocate, stat, resolve]

theorem locate_eq_ok_iff {path : String} {r : Location} :
    fs.locate followLast path = .ok r ↔
      path ≠ "" ∧ fs.Reachable path ∧ r = fs.destination path := by
  by_cases hpath : path = ""
  · simp [locate, hpath]
  · rw [locate, if_neg (by simpa using hpath), resolveSteps, descend_eq_ok_iff hfs, destination,
      Reachable]
    simp [hpath]

theorem stat_eq_ok_iff {path : String} {loc : Location} {e : Entry} :
    fs.stat path = .ok (loc, e) ↔
      path ≠ "" ∧ fs.Reachable path ∧ loc = fs.destination path ∧ fs.get? loc = some e := by
  rw [stat, bind_eq_ok_iff]
  constructor
  · rintro ⟨r, hr, h⟩
    obtain ⟨hpath, hreach, rfl⟩ := (locate_eq_ok_iff hfs).1 hr
    split at h
    next hget =>
      cases h
      exact ⟨hpath, hreach, rfl, hget⟩
    · cases h
  · rintro ⟨hpath, hreach, rfl, hget⟩
    refine ⟨fs.destination path, (locate_eq_ok_iff hfs).2 ⟨hpath, hreach, rfl⟩, ?_⟩
    rw [hget]

theorem isDirectory_iff {path : String} :
    fs.isDirectory path = true ↔
      path ≠ "" ∧ fs.Reachable path ∧ fs.get? (fs.destination path) = some .directory := by
  unfold isDirectory
  split
  next loc h =>
    obtain ⟨hpath, hreach, rfl, hget⟩ := (stat_eq_ok_iff hfs).1 h
    simp [hpath, hreach, hget]
  next hne =>
    simp only [Bool.false_eq_true, false_iff]
    rintro ⟨hpath, hreach, hget⟩
    exact hne _ ((stat_eq_ok_iff hfs).2 ⟨hpath, hreach, rfl, hget⟩)

theorem pathExists_iff {path : String} :
    fs.pathExists path = true ↔
      path ≠ "" ∧ fs.Reachable path ∧ (fs.get? (fs.destination path)).isSome = true := by
  unfold pathExists
  cases h : fs.stat path with
  | ok found =>
    obtain ⟨loc, e⟩ := found
    obtain ⟨hpath, hreach, rfl, hget⟩ := (stat_eq_ok_iff hfs).1 h
    simp [Except.toBool, hpath, hreach, hget]
  | error err =>
    simp only [Except.toBool, Bool.false_eq_true, false_iff]
    rintro ⟨hpath, hreach, hsome⟩
    obtain ⟨e, he⟩ := Option.isSome_iff_exists.1 hsome
    cases h.symm.trans ((stat_eq_ok_iff hfs).2 ⟨hpath, hreach, rfl, he⟩)

theorem pathExists_of_isDirectory {path : String} (h : fs.isDirectory path = true) :
    fs.pathExists path = true := by
  obtain ⟨hpath, hreach, hdir⟩ := (isDirectory_iff hfs).1 h
  exact (pathExists_iff hfs).2 ⟨hpath, hreach, by rw [hdir]; rfl⟩

end LinkFree

section Join

variable {fs : FileSystem} {dir path name : String}

theorem directory_of_passable {loc : Location} {ss : List String} (hss : ss ≠ [])
    (h : fs.Passable loc ss) : fs.get? loc = some .directory := by
  cases ss with
  | nil => exact absurd rfl hss
  | cons s ss => exact h.1

theorem reachable_join (hpath : Path.isAbsolute path = false) :
    fs.Reachable (Path.join dir path) ↔
      fs.Reachable dir ∧ fs.Passable (fs.destination dir) (steps path) := by
  have hdirectory : fs.Passable (fs.destination dir) (steps path) →
      fs.get? (fs.destination dir) = some .directory := directory_of_passable (steps_ne_nil path)
  rw [Reachable, Reachable, start_join fs dir hpath]
  by_cases hdir : dir = ""
  · subst hdir
    rw [Path.join, hpath]
    exact ⟨fun h => ⟨⟨hdirectory h, trivial⟩, h⟩, And.right⟩
  · obtain ⟨ss, hss | hss, hjoin⟩ := steps_join_relative hdir hpath
    · rw [hjoin, passable_append, destination, hss]
    -- The slash at the end asks for the directory that the next step needs as well.
    · have hdest : fs.destination dir = ss.foldl place (fs.start dir) := by
        rw [destination, hss, List.foldl_append]
        rfl
      rw [hjoin, passable_append, hss, passable_append, passable_name, hdest]
      rw [hdest] at hdirectory
      exact ⟨fun h => ⟨⟨h.1, hdirectory h.2⟩, h.2⟩, fun h => ⟨h.1.1, h.2⟩⟩

theorem reachable_join_name (hname : IsName name) :
    fs.Reachable (Path.join dir name) ↔
      fs.Reachable dir ∧ fs.get? (fs.destination dir) = some .directory := by
  rw [reachable_join hname.isAbsolute_eq_false, hname.steps_eq, passable_name]

theorem join_ne_empty (dir : String) (hpath : path ≠ "") : Path.join dir path ≠ "" := by
  rw [Path.join]
  split
  · exact hpath
  · split <;> simp [hpath]

theorem resolve_join_name (hfs : fs.LinkFree) (hname : IsName name) (hreach : fs.Reachable dir)
    (hdir : fs.get? (fs.destination dir) = some .directory) :
    fs.resolve (Path.join dir name) = .ok (fs.destination dir ++ [name]) := by
  refine (locate_eq_ok_iff hfs).2 ⟨join_ne_empty dir hname.2.1, ?_, ?_⟩
  · exact (reachable_join_name hname).2 ⟨hreach, hdir⟩
  · exact (destination_join_name hname fs dir).symm

theorem reachable_withoutEndSlashes (h : fs.Reachable path) :
    fs.Reachable (withoutEndSlashes path) := by
  obtain ⟨n, hn⟩ := steps_withoutEndSlashes path
  rw [Reachable, hn, passable_append] at h
  rw [Reachable, start_withoutEndSlashes]
  exact h.1

end Join

end FileSystem

end MessageKeys

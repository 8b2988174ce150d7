import Mathlib.Data.List.Nodup
import MessageKeys.Proofs.Changes

namespace MessageKeys.FileSystem

/-- Every entry has proper names down to it and stands in a directory. -/
structure IsTree (fs : FileSystem) : Prop where
  isName : ∀ entry ∈ fs.entries, ∀ name ∈ entry.1, IsName name
  inDirectory : ∀ entry ∈ fs.entries, fs.get? entry.1.dropLast = some .directory

instance (fs : FileSystem) : Decidable fs.IsTree :=
  decidable_of_iff ((∀ entry ∈ fs.entries, ∀ name ∈ entry.1, IsName name) ∧
    ∀ entry ∈ fs.entries, fs.get? entry.1.dropLast = some .directory)
    ⟨fun h => ⟨h.1, h.2⟩, fun h => ⟨h.isName, h.inDirectory⟩⟩

structure IsLinkFreeTree (fs : FileSystem) : Prop extends IsTree fs where
  linkFree : fs.LinkFree

/-- A tree without links in which every location is listed once, as in the file systems that a run
works on. -/
structure WellFormed (fs : FileSystem) : Prop extends IsLinkFreeTree fs where
  nodup : (fs.entries.map (·.1)).Nodup

theorem wellFormed_of_entries {fs : FileSystem} (htree : fs.IsTree)
    (hlinks : ∀ entry ∈ fs.entries, entry.2.isLink = false)
    (hnodup : (fs.entries.map (·.1)).Nodup) : fs.WellFormed :=
  ⟨⟨htree, linkFree_of_entries hlinks⟩, hnodup⟩

section Tree

variable {fs : FileSystem} (htree : fs.IsTree)
include htree

theorem IsTree.dropLast {loc : Location} {e : Entry} (h : fs.get? loc = some e) :
    fs.get? loc.dropLast = some .directory := by
  by_cases hloc : loc = []
  · rw [hloc]
    rfl
  · exact htree.inDirectory _ (mem_of_get?_eq_some hloc h)

theorem IsTree.isName_of_get? {loc : Location} {e : Entry} (h : fs.get? loc = some e) :
    ∀ name ∈ loc, IsName name := by
  intro name hname
  have hloc : loc ≠ [] := by
    rintro rfl
    cases hname
  exact htree.isName _ (mem_of_get?_eq_some hloc h) name hname

theorem IsTree.directory_of_append {loc names : Location} {e : Entry} (hne : names ≠ [])
    (h : fs.get? (loc ++ names) = some e) : fs.get? loc = some .directory := by
  induction names using List.reverseRecOn generalizing e with
  | nil => exact absurd rfl hne
  | append_singleton names name ih =>
    have hdir := htree.dropLast h
    rw [← List.append_assoc, List.dropLast_concat] at hdir
    by_cases hnames : names = []
    · rwa [hnames, List.append_nil] at hdir
    · exact ih hnames hdir

/-- No entry is deeper than there are entries. -/
theorem IsTree.length_le {loc : Location} {e : Entry} (h : fs.get? loc = some e) :
    loc.length ≤ fs.entries.length := by
  -- The places on the way down are all listed, and all different.
  set above := (List.range loc.length).map fun k => loc.take (k + 1)
  have hnodup : above.Nodup := by
    refine List.Nodup.map_on (fun i hi j hj heq => ?_) List.nodup_range
    rw [List.mem_range] at hi hj
    have hlength := congrArg List.length heq
    rw [List.length_take, List.length_take] at hlength
    omega
  have hsubset : above ⊆ fs.entries.map (·.1) := by
    intro l hl
    obtain ⟨k, hk, rfl⟩ := List.mem_map.1 hl
    rw [List.mem_range] at hk
    have hsome : ∃ e, fs.get? (loc.take (k + 1)) = some e := by
      by_cases hrest : loc.drop (k + 1) = []
      · rw [List.take_of_length_le (List.drop_eq_nil_iff.1 hrest)]
        exact ⟨e, h⟩
      · rw [← List.take_append_drop (k + 1) loc] at h
        exact ⟨_, htree.directory_of_append hrest h⟩
    obtain ⟨e', he'⟩ := hsome
    have hne : loc.take (k + 1) ≠ [] := by
      rw [Ne, List.take_eq_nil_iff, ← List.length_eq_zero_iff]
      omega
    exact List.mem_map_of_mem (mem_of_get?_eq_some hne he')
  have hle := hnodup.length_le_of_subset hsubset
  rwa [List.length_map, List.length_map, List.length_range] at hle

end Tree

theorem isTree_of_added {fs fs' : FileSystem} (htree : fs.IsTree)
    (hdirectory : ∀ loc, fs.get? loc = some .directory → fs'.get? loc = some .directory)
    (hentries : ∀ entry ∈ fs'.entries, entry ∈ fs.entries ∨
      ∃ dir name, entry.1 = dir ++ [name] ∧ fs.get? dir = some .directory ∧ IsName name) :
    fs'.IsTree where
  isName entry he := by
    rcases hentries entry he with he | ⟨dir, name, heq, hdir, hname⟩
    · exact htree.isName entry he
    · rw [heq]
      intro n hn
      rcases List.mem_append.1 hn with hn | hn
      · exact htree.isName_of_get? hdir n hn
      · exact List.mem_singleton.1 hn ▸ hname
  inDirectory entry he := by
    refine hdirectory _ ?_
    rcases hentries entry he with he | ⟨dir, name, heq, hdir, -⟩
    · exact htree.inDirectory entry he
    · rwa [heq, List.dropLast_concat]

theorem isName_of_mem_steps {path step : String} (h : step ∈ steps path) (hdot : step ≠ ".")
    (hdots : step ≠ "..") : IsName step := by
  obtain ⟨s, hs, rfl⟩ := List.mem_map.1 h
  by_cases hempty : s = ""
  · simp [hempty] at hdot
  · have hs' : (if s.isEmpty then "." else s) = s := if_neg (by simpa using hempty)
    rw [hs'] at hdot hdots ⊢
    exact ⟨Path.notMem_of_mem_segments hs, hempty, hdot, hdots⟩

theorem exists_name_of_reachable {fs : FileSystem} (htree : fs.IsTree) {path : String}
    (hreach : fs.Reachable path) (hnot : fs.get? (fs.destination path) ≠ some .directory) :
    ∃ ss name dir, steps path = ss ++ [name] ∧ IsName name ∧
      fs.destination path = dir ++ [name] ∧ fs.get? dir = some .directory := by
  obtain ⟨ss, step, hss⟩ : ∃ ss step, steps path = ss ++ [step] :=
    ⟨_, _, (List.dropLast_append_getLast (steps_ne_nil path)).symm⟩
  rw [Reachable, hss, passable_append, passable_name] at hreach
  set dir := ss.foldl place (fs.start path)
  have hdest : fs.destination path = place dir step := by
    rw [destination, hss, List.foldl_append]
    rfl
  have hdot : step ≠ "." := by
    rintro rfl
    exact hnot (hdest ▸ hreach.2)
  have hdots : step ≠ ".." := by
    rintro rfl
    exact hnot (hdest ▸ htree.dropLast hreach.2)
  have hname : IsName step := isName_of_mem_steps (hss ▸ List.mem_concat_self) hdot hdots
  exact ⟨ss, step, dir, hss, hname, hdest.trans (hname.place_eq dir), hreach.2⟩

theorem IsLinkFreeTree.of_write {fs fs' : FileSystem} (hfs : fs.IsLinkFreeTree) {path : String}
    {content : ByteArray} (h : fs.write path content = .ok fs') : fs'.IsLinkFreeTree := by
  obtain ⟨loc, hloc, hplain, rfl⟩ := write_eq_ok_iff.1 h
  obtain ⟨-, hreach, rfl⟩ := (locate_eq_ok_iff hfs.linkFree).1 hloc
  obtain ⟨-, name, dir, -, hname, hdest, hdir⟩ :=
    exists_name_of_reachable hfs.toIsTree hreach hplain.get?_ne_directory
  have hsame := sameBut_set hplain content
  refine ⟨isTree_of_added hfs.toIsTree (fun loc => hsame.directory_of) ?_,
    hfs.linkFree.of_sameBut hsame⟩
  intro entry he
  refine (mem_setEntry he).imp_right ?_
  rintro rfl
  exact ⟨dir, name, hdest, hdir, hname⟩

theorem IsLinkFreeTree.of_makeDirectory {fs fs' : FileSystem} (hfs : fs.IsLinkFreeTree)
    {path : String} (h : fs.makeDirectory path = .ok fs') : fs'.IsLinkFreeTree := by
  refine ⟨?_, hfs.linkFree.of_grownBy (makeDirectory_eq_ok hfs.linkFree h)⟩
  obtain ⟨loc, hloc, h⟩ := bind_eq_ok_iff.1 h
  obtain ⟨-, hreach, rfl⟩ := (locate_eq_ok_iff hfs.linkFree).1 hloc
  split at h
  · cases h
  next hnone =>
    cases h
    obtain ⟨-, name, dir, -, hname, hdest, hdir⟩ :=
      exists_name_of_reachable hfs.toIsTree hreach (by simp [hnone])
    refine isTree_of_added hfs.toIsTree (fun loc hl => ?_) ?_
    · rcases (grownBy_set hnone).get? loc with heq | ⟨-, -, hadded⟩
      · exact heq.trans hl
      · exact hadded
    · intro entry he
      refine (mem_setEntry he).imp_right ?_
      rintro rfl
      exact ⟨dir, name, hdest, hdir, hname⟩

section WellFormed

variable {fs : FileSystem} (hfs : fs.WellFormed)
include hfs

theorem WellFormed.of_write {fs' : FileSystem} {path : String} {content : ByteArray}
    (h : fs.write path content = .ok fs') : fs'.WellFormed := by
  refine ⟨hfs.toIsLinkFreeTree.of_write h, ?_⟩
  obtain ⟨loc, -, -, rfl⟩ := write_eq_ok_iff.1 h
  exact nodup_setEntry hfs.nodup

theorem WellFormed.of_makeDirectory {fs' : FileSystem} {path : String}
    (h : fs.makeDirectory path = .ok fs') : fs'.WellFormed := by
  refine ⟨hfs.toIsLinkFreeTree.of_makeDirectory h, ?_⟩
  obtain ⟨loc, -, h⟩ := bind_eq_ok_iff.1 h
  split at h
  · cases h
  · cases h
    exact nodup_setEntry hfs.nodup

theorem WellFormed.makeDirectories (paths : List String) :
    (fs.makeDirectories paths).1.WellFormed := by
  induction paths with
  | nil => exact hfs
  | cons path around ih =>
    rw [FileSystem.makeDirectories]
    split
    next hmade => exact hfs.of_makeDirectory hmade
    · split
      next hfailed => exact hfailed ▸ ih
      next hdone =>
        rw [hdone] at ih
        split
        next hmade => exact ih.of_makeDirectory hmade
        · exact ih
    · exact hfs

theorem WellFormed.withFile (path : String) (content : ByteArray) :
    (fs.withFile path content).WellFormed := by
  have hwrite : ∀ {fs : FileSystem}, fs.WellFormed →
      ((fs.write path content).toOption.getD fs).WellFormed := by
    intro fs hfs
    cases hw : fs.write path content with
    | error e => exact hfs
    | ok fs' => exact hfs.of_write hw
  rw [FileSystem.withFile]
  cases Path.parent? path with
  | none => exact hwrite hfs
  | some dir => exact hwrite (hfs.makeDirectories _)

end WellFormed

theorem wellFormed_ofFiles (workingDirectory : String) (files : List (String × ByteArray)) :
    (ofFiles workingDirectory files).WellFormed := by
  have hempty : (FileSystem.mk [] []).WellFormed :=
    wellFormed_of_entries (by decide) (by simp) (by simp)
  -- The working directory does not count.
  have hstart := hempty.makeDirectories (ancestors (workingDirectory.length + 1) workingDirectory)
  rw [ofFiles]
  refine List.foldlRecOn files _
    ⟨⟨⟨hstart.isName, hstart.inDirectory⟩, hstart.linkFree⟩, hstart.nodup⟩ ?_
  intro fs hfs file _
  exact hfs.withFile file.1 file.2

end MessageKeys.FileSystem

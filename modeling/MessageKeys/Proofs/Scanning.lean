import MessageKeys.Project.Scan
import MessageKeys.Proofs.StringOrder
import MessageKeys.Proofs.Trees

namespace MessageKeys

namespace FileSystem

section Below

variable {fs : FileSystem} {loc : Location} {e : Entry}

theorem mem_below_iff {names : Location} :
    (names, e) ∈ fs.below loc ↔ names ≠ [] ∧ (loc ++ names, e) ∈ fs.entries := by
  rw [below, List.mem_filterMap]
  constructor
  · rintro ⟨⟨l, e'⟩, hmem, h⟩
    dsimp only at h
    split at h
    next hl =>
      cases h
      rw [Bool.and_eq_true, List.isPrefixOf_iff_prefix, bne_iff_ne] at hl
      obtain ⟨⟨names, rfl⟩, hne⟩ := hl
      rw [List.drop_left]
      exact ⟨fun h => hne (by rw [h, List.append_nil]), hmem⟩
    · cases h
  · rintro ⟨hne, hmem⟩
    refine ⟨_, hmem, ?_⟩
    simp [hne]

theorem mem_children_iff {name : String} :
    (name, e) ∈ fs.children loc ↔ (loc ++ [name], e) ∈ fs.entries := by
  rw [children, List.mem_filterMap]
  constructor
  · rintro ⟨⟨names, e'⟩, hmem, h⟩
    split at h
    next heq =>
      cases h
      cases heq
      exact (mem_below_iff.1 hmem).2
    · cases h
  · intro h
    exact ⟨([name], e), mem_below_iff.2 ⟨List.cons_ne_nil _ _, h⟩, rfl⟩

theorem get?_isSome_of_mem (h : (loc, e) ∈ fs.entries) : ∃ e', fs.get? loc = some e' := by
  rw [get?]
  split
  · exact ⟨_, rfl⟩
  · rw [← Option.isSome_iff_exists, Option.isSome_iff_ne_none, Ne, List.lookup_eq_none_iff]
    intro hnone
    have := hnone _ h
    simp at this

end Below

theorem destination_foldl_join (fs : FileSystem) (root : String) {names : List String}
    (hnames : ∀ name ∈ names, IsName name) :
    fs.destination (names.foldl Path.join root) = fs.destination root ++ names := by
  induction names generalizing root with
  | nil => simp
  | cons name names ih =>
    rw [List.forall_mem_cons] at hnames
    rw [List.foldl_cons, ih _ hnames.2, destination_join_name hnames.1, List.append_assoc,
      List.singleton_append]

theorem reachable_foldl_join {fs : FileSystem} (htree : fs.IsTree) {root : String}
    (hroot : fs.Reachable root) {names : List String} {e : Entry}
    (h : fs.get? (fs.destination root ++ names) = some e) :
    fs.Reachable (names.foldl Path.join root) := by
  have hnames : ∀ name ∈ names, IsName name := fun name hname =>
    htree.isName_of_get? h name (List.mem_append_right _ hname)
  induction names using List.reverseRecOn generalizing e with
  | nil => exact hroot
  | append_singleton names name ih =>
    rw [List.forall_mem_append] at hnames
    have hdir := htree.dropLast h
    rw [← List.append_assoc, List.dropLast_concat] at hdir
    rw [List.foldl_append, List.foldl_cons, List.foldl_nil,
      reachable_join_name (hnames.2 name (List.mem_singleton_self _)),
      destination_foldl_join fs root hnames.1]
    exact ⟨ih hdir hnames.1, hdir⟩

end FileSystem

open FileSystem

namespace Scan

/-- The files at or below a path. -/
def Finds (fs : FileSystem) (root path : String) : Prop :=
  ∃ paths, walk fs root = .ok paths ∧ path ∈ paths

theorem mem_filesBelow_iff {fs : FileSystem} {root path : String} {loc : Location} :
    path ∈ walk.filesBelow fs root loc ↔
      ∃ names content, names ≠ [] ∧ (loc ++ names, .file content) ∈ fs.entries ∧
        path = names.foldl Path.join root := by
  rw [walk.filesBelow, List.mem_filterMap]
  constructor
  · rintro ⟨⟨names, e⟩, hmem, h⟩
    split at h
    next content heq =>
      cases heq
      cases h
      obtain ⟨hne, hmem⟩ := mem_below_iff.1 hmem
      exact ⟨_, content, hne, hmem, rfl⟩
    · cases h
  · rintro ⟨names, content, hne, hmem, rfl⟩
    exact ⟨(names, .file content), mem_below_iff.2 ⟨hne, hmem⟩, rfl⟩

/-- A walk finds the path itself if it leads to a file, and otherwise all files below it. -/
theorem finds_iff {fs : FileSystem} (hfs : fs.LinkFree) {root path : String} :
    Finds fs root path ↔ root ≠ "" ∧ fs.Reachable root ∧
      ((∃ content, fs.get? (fs.destination root) = some (.file content)) ∧ path = root ∨
        fs.get? (fs.destination root) = some .directory ∧
          ∃ names content, names ≠ [] ∧ (fs.destination root ++ names, .file content) ∈ fs.entries ∧
            path = names.foldl Path.join root) := by
  constructor
  · rintro ⟨paths, hwalk, hmem⟩
    rw [walk, statLink_eq_stat hfs] at hwalk
    obtain ⟨⟨loc, e⟩, hstat, h⟩ := bind_eq_ok_iff.1 hwalk
    obtain ⟨hroot, hreach, rfl, hget⟩ := (stat_eq_ok_iff hfs).1 hstat
    refine ⟨hroot, hreach, ?_⟩
    cases e with
    | file content =>
      cases h
      exact .inl ⟨⟨content, hget⟩, List.mem_singleton.1 hmem⟩
    | directory =>
      cases h
      exact .inr ⟨hget, mem_filesBelow_iff.1 hmem⟩
    | link target => exact absurd hget (hfs _ target)
  · rintro ⟨hroot, hreach, ⟨⟨content, hget⟩, rfl⟩ | ⟨hget, hbelow⟩⟩
    · refine ⟨[path], ?_, List.mem_singleton_self _⟩
      rw [walk, statLink_eq_stat hfs, (stat_eq_ok_iff hfs).2 ⟨hroot, hreach, rfl, hget⟩]
      rfl
    · refine ⟨walk.filesBelow fs root (fs.destination root), ?_, mem_filesBelow_iff.2 hbelow⟩
      rw [walk, statLink_eq_stat hfs, (stat_eq_ok_iff hfs).2 ⟨hroot, hreach, rfl, hget⟩]
      rfl

theorem pathExists_of_finds {fs : FileSystem} (hfs : fs.LinkFree) {root path : String}
    (h : Finds fs root path) : fs.pathExists root = true := by
  obtain ⟨hroot, hreach, ⟨⟨content, hget⟩, -⟩ | ⟨hget, -⟩⟩ := (finds_iff hfs).1 h
  · exact (pathExists_iff hfs).2 ⟨hroot, hreach, by rw [hget]; rfl⟩
  · exact (pathExists_iff hfs).2 ⟨hroot, hreach, by rw [hget]; rfl⟩

theorem mem_filesOf_iff {fs : FileSystem} {ignored : IgnoreSet} {root path : String} :
    path ∈ filesOf fs ignored root ↔
      Finds fs root path ∧ ignored.ignores path = false ∧ isSource path = true := by
  rw [filesOf, List.mem_filter, Finds]
  cases walk fs root with
  | error e => simp [Except.toOption]
  | ok paths => simp [Except.toOption]

theorem stat_of_finds {fs : FileSystem} (hfs : fs.IsLinkFreeTree) {root path : String}
    (h : Finds fs root path) : ∃ e, fs.stat path = .ok (fs.destination path, e) := by
  obtain ⟨hroot, hreach, ⟨⟨content, hget⟩, rfl⟩ | ⟨-, names, content, hne, hmem, rfl⟩⟩ :=
    (finds_iff hfs.linkFree).1 h
  · exact ⟨_, (stat_eq_ok_iff hfs.linkFree).2 ⟨hroot, hreach, rfl, hget⟩⟩
  · have hnames : ∀ name ∈ names, IsName name := fun name hname =>
      hfs.isName _ hmem name (List.mem_append_right _ hname)
    obtain ⟨e, he⟩ := get?_isSome_of_mem hmem
    have hreach' := reachable_foldl_join hfs.toIsTree hreach he
    refine ⟨e, (stat_eq_ok_iff hfs.linkFree).2 ⟨?_, hreach', rfl, ?_⟩⟩
    · obtain ⟨ns, n, rfl⟩ := List.eq_nil_or_concat names |>.resolve_left hne
      rw [List.concat_eq_append, List.foldl_append]
      exact join_ne_empty _ (hnames n (by simp)).2.1
    · rwa [destination_foldl_join fs root hnames]

theorem isSource_eq_of_steps {path name : String} {ss : List String}
    (h : steps path = ss ++ [name]) (hname : IsName name) : isSource path = isSource name := by
  have hpath := Path.fileName?_of_steps h hname
  have hself : Path.fileName? name = some name :=
    Path.fileName?_of_steps (hname.steps_eq.trans (List.nil_append _).symm) hname
  rw [isSource, isSource, Path.extension?, Path.extension?, hpath, hself]

/-- The name at the end of a location is not that of a source file. -/
def NoSource (loc : Location) : Prop := ∃ name, loc.getLast? = some name ∧ isSource name = false

/-- A path of a source file does not lead to a file of another name. -/
theorem not_noSource_destination {fs : FileSystem} (htree : fs.IsTree) {path : String}
    (hreach : fs.Reachable path) (hplain : fs.IsPlain (fs.destination path))
    (hsource : isSource path = true) : ¬ NoSource (fs.destination path) := by
  rintro ⟨name, hlast, hname⟩
  obtain ⟨ss, step, dir, hsteps, hstep, hdest, -⟩ :=
    exists_name_of_reachable htree hreach hplain.get?_ne_directory
  rw [hdest, List.getLast?_concat, Option.some.injEq] at hlast
  rw [isSource_eq_of_steps hsteps hstep, hlast, hname] at hsource
  cases hsource

section SameBut

variable {changed : Location → Prop} {fs fs' : FileSystem} (hfs : fs.IsLinkFreeTree)
  (h : SameBut changed fs fs') (hchanged : ∀ loc, changed loc → NoSource loc)
include hfs h hchanged

theorem stat_eq_of_isSource {path : String} {loc : Location} {e : Entry}
    (hstat : fs.stat path = .ok (loc, e)) (hsource : isSource path = true) :
    fs'.stat path = .ok (loc, e) := by
  obtain ⟨hpath, hreach, rfl, hget⟩ := (stat_eq_ok_iff hfs.linkFree).1 hstat
  refine (stat_eq_ok_iff (hfs.linkFree.of_sameBut h)).2
    ⟨hpath, h.reachable hreach, (h.destination_eq path).symm, ?_⟩
  rcases h.get? (fs.destination path) with heq | ⟨hc, hplain, -⟩
  · exact heq.trans hget
  · exact absurd (hchanged _ hc) (not_noSource_destination hfs.toIsTree hreach hplain hsource)

theorem finds_of_sameBut {root path : String} (hfound : Finds fs root path)
    (hsource : isSource path = true) : Finds fs' root path := by
  obtain ⟨hroot, hreach, hcases⟩ := (finds_iff hfs.linkFree).1 hfound
  refine (finds_iff (hfs.linkFree.of_sameBut h)).2 ⟨hroot, h.reachable hreach, ?_⟩
  rw [h.destination_eq]
  rcases hcases with ⟨⟨content, hget⟩, rfl⟩ | ⟨hdir, names, content, hne, hmem, rfl⟩
  · left
    refine ⟨⟨content, ?_⟩, rfl⟩
    rcases h.get? (fs.destination path) with heq | ⟨hc, hplain, -⟩
    · exact heq.trans hget
    · exact absurd (hchanged _ hc) (not_noSource_destination hfs.toIsTree hreach hplain hsource)
  · right
    refine ⟨h.directory_of hdir, names, content, hne, ?_, rfl⟩
    refine (h.entries _ hmem).resolve_right ?_
    rintro ⟨hc, -⟩
    obtain ⟨name, hlast, hname⟩ := hchanged _ hc
    obtain ⟨ns, n, rfl⟩ := (List.eq_nil_or_concat names).resolve_left hne
    have hn : IsName n := hfs.isName _ hmem n (by simp)
    obtain ⟨ss, hss⟩ := steps_join hn.1 hn.2.1 (ns.foldl Path.join root)
    rw [List.concat_eq_append, List.foldl_append, List.foldl_cons, List.foldl_nil,
      isSource_eq_of_steps hss hn] at hsource
    rw [List.concat_eq_append, ← List.append_assoc, List.getLast?_concat,
      Option.some.injEq] at hlast
    rw [hlast, hname] at hsource
    cases hsource

end SameBut

end Scan

end MessageKeys

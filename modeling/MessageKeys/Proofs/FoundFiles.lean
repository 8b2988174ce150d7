import MessageKeys.Proofs.Matching

namespace MessageKeys

open FileSystem

theorem FileSystem.WellFormed.get?_eq_some_iff_mem {fs : FileSystem} (hfs : fs.WellFormed)
    {loc : Location} {e : Entry} (hloc : loc ≠ []) :
    fs.get? loc = some e ↔ (loc, e) ∈ fs.entries := by
  constructor
  · exact mem_of_get?_eq_some hloc
  · intro hmem
    rw [get?, if_neg (by simpa using hloc), List.lookup_eq_some_iff]
    obtain ⟨before, after, hentries⟩ := List.append_of_mem hmem
    refine ⟨before, after, hentries, ?_⟩
    have hnodup := hfs.nodup
    rw [hentries, List.map_append, List.map_cons] at hnodup
    intro entry hentry
    have hne : entry.1 ≠ loc := by
      rintro rfl
      exact (List.disjoint_of_nodup_append hnodup) (List.mem_map_of_mem hentry) List.mem_cons_self
    exact bne_iff_ne.2 hne.symm

namespace Scan

/-- The base, or what one of the includes stands for: a path seen from the base that exists, or a
directory that the pattern leads to. -/
def IsRoot (fs : FileSystem) (base : String) (includes : List String) (root : String) : Prop :=
  includes = [] ∧ root = base ∨ ∃ entry ∈ includes,
    Glob.isGlob entry = false ∧ root = Path.join base entry ∧ fs.pathExists root = true ∨
    Glob.isGlob entry = true ∧ Glob.StandsFor fs (Path.join base entry) root ∧
      fs.isDirectory root = true

section Roots

variable {fs : FileSystem} (hfs : fs.IsLinkFreeTree) {base : String}
include hfs

theorem mem_includeRoots_iff {entry root : String} :
    root ∈ ((includeRoots fs base entry).toOption).getD [] ↔
      Glob.isGlob entry = false ∧ root = Path.join base entry ∧ fs.pathExists root = true ∨
      Glob.isGlob entry = true ∧ Glob.StandsFor fs (Path.join base entry) root ∧
        fs.isDirectory root = true := by
  rw [← Glob.exists_expand_iff hfs]
  unfold includeRoots
  dsimp only
  cases hglob : Glob.isGlob entry with
  | true =>
    cases hexpand : Glob.expand fs (Path.join base entry) with
    | ok paths => simp [Except.toOption]
    | error e => simp [Except.toOption]
  | false =>
    cases hexists : fs.pathExists (Path.join base entry) with
    | true =>
      simp only [Bool.false_eq_true, if_false, if_true, Except.toOption, Option.getD_some,
        List.mem_singleton, true_and, false_and, or_false]
      constructor
      · rintro rfl
        exact ⟨rfl, hexists⟩
      · exact And.left
    | false =>
      simp only [Bool.false_eq_true, if_false, Except.toOption, Option.getD_none,
        List.not_mem_nil, true_and, false_and, or_false, false_iff]
      rintro ⟨rfl, h⟩
      cases hexists.symm.trans h

theorem mem_roots_iff {includes : List String} {root : String} :
    root ∈ roots fs base includes ↔ IsRoot fs base includes root := by
  rw [roots, IsRoot]
  cases includes with
  | nil => simp
  | cons first rest =>
    rw [if_neg (by simp), List.mem_flatMap]
    simp only [mem_includeRoots_iff hfs, reduceCtorEq, false_and, false_or]

end Roots

theorem pathExists_of_isRoot {fs : FileSystem} (hfs : fs.LinkFree) {base root : String}
    {includes : List String} (hincludes : includes ≠ []) (h : IsRoot fs base includes root) :
    fs.pathExists root = true := by
  rcases h with ⟨rfl, -⟩ | ⟨entry, -, ⟨-, -, hexists⟩ | ⟨-, -, hdir⟩⟩
  · exact absurd rfl hincludes
  · exact hexists
  · exact pathExists_of_isDirectory hfs hdir

/-- A file that is a root itself or below it, with its path from the root on. -/
def FileBelow (fs : FileSystem) (root path : String) (loc : Location) : Prop :=
  ∃ start names content, fs.resolve root = .ok start ∧ loc = start ++ names ∧
    fs.get? loc = some (.file content) ∧ path = names.foldl Path.join root

theorem finds_iff_fileBelow {fs : FileSystem} (hfs : fs.WellFormed) {root path : String} :
    Finds fs root path ↔ ∃ loc, FileBelow fs root path loc := by
  rw [finds_iff hfs.linkFree]
  constructor
  · rintro ⟨hroot, hreach, ⟨⟨content, hget⟩, rfl⟩ | ⟨-, names, content, hne, hmem, rfl⟩⟩
    · have hstart : fs.resolve path = .ok (fs.destination path) :=
        (locate_eq_ok_iff hfs.linkFree).2 ⟨hroot, hreach, rfl⟩
      exact ⟨_, _, [], content, hstart, by simp, hget, rfl⟩
    · have hstart : fs.resolve root = .ok (fs.destination root) :=
        (locate_eq_ok_iff hfs.linkFree).2 ⟨hroot, hreach, rfl⟩
      refine ⟨_, _, names, content, hstart, rfl, ?_, rfl⟩
      exact (hfs.get?_eq_some_iff_mem (by simp [hne])).2 hmem
  · rintro ⟨loc, start, names, content, hstart, rfl, hget, rfl⟩
    obtain ⟨hroot, hreach, rfl⟩ := (locate_eq_ok_iff hfs.linkFree).1 hstart
    refine ⟨hroot, hreach, ?_⟩
    by_cases hne : names = []
    · subst hne
      rw [List.append_nil] at hget
      exact .inl ⟨⟨content, hget⟩, rfl⟩
    · exact .inr ⟨hfs.directory_of_append hne hget, names, content, hne,
        mem_of_get?_eq_some (by simp [hne]) hget, rfl⟩

theorem FileBelow.resolve_eq {fs : FileSystem} (hfs : fs.WellFormed) {root path : String}
    {loc : Location} (h : FileBelow fs root path loc) : fs.resolve path = .ok loc := by
  obtain ⟨e, he⟩ := stat_of_finds hfs.toIsLinkFreeTree ((finds_iff_fileBelow hfs).2 ⟨loc, h⟩)
  obtain ⟨hpath, hreach, -, -⟩ := (stat_eq_ok_iff hfs.linkFree).1 he
  obtain ⟨start, names, content, hstart, rfl, hget, rfl⟩ := h
  obtain ⟨-, -, rfl⟩ := (locate_eq_ok_iff hfs.linkFree).1 hstart
  refine (locate_eq_ok_iff hfs.linkFree).2 ⟨hpath, hreach, ?_⟩
  exact (destination_foldl_join fs root fun name hname =>
    hfs.isName_of_get? hget name (List.mem_append_right _ hname)).symm

theorem extensionOf?_eq_some_iff {name : List Char} {ext : String} :
    Path.extensionOf? name = some ext ↔
      '.' ∉ ext.toList ∧ ∃ stem, stem ≠ [] ∧ name = stem ++ '.' :: ext.toList := by
  rw [Path.extensionOf?]
  constructor
  · intro h
    split at h
    · cases h
    · cases h
    next hnil hsingle =>
      cases h
      rw [String.toList_ofList]
      have hsplit := List.takeWhile_append_dropWhile (p := (· != '.')) (l := name.reverse)
      cases hdrop : name.reverse.dropWhile (· != '.') with
      | nil => exact absurd hdrop hnil
      | cons c rest =>
        have hc : c = '.' := by
          have hhead := List.head_dropWhile_not (p := (· != '.')) (by rw [hdrop]; simp)
          simpa [hdrop] using hhead
        subst hc
        refine ⟨?_, rest.reverse, ?_, ?_⟩
        · rw [List.mem_reverse]
          intro hmem
          have hne := List.mem_takeWhile_imp hmem
          simp at hne
        · rw [Ne, List.reverse_eq_nil_iff]
          rintro rfl
          exact hsingle _ hdrop
        · rw [hdrop] at hsplit
          have hname := congrArg List.reverse hsplit
          simpa using hname.symm
  · rintro ⟨hdot, stem, hstem, rfl⟩
    have hplain : ∀ c ∈ ext.toList.reverse, (c != '.') = true := by
      intro c hc
      rw [List.mem_reverse] at hc
      rw [bne_iff_ne]
      rintro rfl
      exact hdot hc
    have hrev : (stem ++ '.' :: ext.toList).reverse =
        ext.toList.reverse ++ '.' :: stem.reverse := by simp
    rw [hrev, List.dropWhile_append_of_pos hplain, List.takeWhile_append_of_pos hplain,
      List.dropWhile_cons_of_neg (by simp), List.takeWhile_cons_of_neg (by simp)]
    obtain ⟨c, cs, hcs⟩ := List.exists_cons_of_ne_nil (mt List.reverse_eq_nil_iff.1 hstem)
    rw [hcs]
    simp

/-- A name that ends in a known extension, with something before the dot. -/
def IsSourceName (name : String) : Prop :=
  ∃ stem ext, stem ≠ "" ∧ ext ∈ sourceExtensions ∧ name = stem ++ "." ++ ext

theorem isSource_iff {name : String} (hname : IsName name) :
    isSource name = true ↔ IsSourceName name := by
  have hself : Path.fileName? name = some name :=
    Path.fileName?_of_steps (hname.steps_eq.trans (List.nil_append _).symm) hname
  have hextension : isSource name = true ↔
      ∃ ext ∈ sourceExtensions, Path.extensionOf? name.toList = some ext := by
    rw [isSource, Path.extension?, hself, Option.bind_some]
    cases Path.extensionOf? name.toList with
    | none => simp
    | some ext => simp
  have hplain : ∀ ext ∈ sourceExtensions, '.' ∉ ext.toList := by decide
  rw [hextension]
  constructor
  · rintro ⟨ext, hext, h⟩
    obtain ⟨-, stem, hstem, hsplit⟩ := extensionOf?_eq_some_iff.1 h
    refine ⟨String.ofList stem, ext, by simpa using hstem, hext, ?_⟩
    exact String.toList_inj.1 (by simpa using hsplit)
  · rintro ⟨stem, ext, hstem, hext, rfl⟩
    refine ⟨ext, hext, extensionOf?_eq_some_iff.2 ⟨hplain ext hext, stem.toList, ?_, ?_⟩⟩
    · simpa using hstem
    · simp

theorem isSource_iff_of_fileBelow {fs : FileSystem} (hfs : fs.WellFormed) {root path : String}
    {loc : Location} (h : FileBelow fs root path loc) :
    isSource path = true ↔ ∃ name, loc.getLast? = some name ∧ IsSourceName name := by
  obtain ⟨-, hreach, hdest⟩ := (locate_eq_ok_iff hfs.linkFree).1 (h.resolve_eq hfs)
  obtain ⟨start, names, content, -, -, hget, -⟩ := h
  obtain ⟨ss, name, dir, hsteps, hname, hlast, -⟩ :=
    exists_name_of_reachable hfs.toIsTree hreach (by rw [← hdest, hget]; simp)
  rw [hdest, hlast, List.getLast?_concat, isSource_eq_of_steps hsteps hname, isSource_iff hname]
  simp

/-- A text is a pattern that matches a whole path. -/
def MatchedBy (text path : String) : Prop :=
  ∃ p, Glob.Pattern.parse text = .ok p ∧ p.Matches path.toList

/-- No rule ignores a path: no literal entry begins it, component by component, and no pattern
matches it as a whole. -/
structure Kept (base : String) (ignores : List String) (ignoreTests : Bool) (path : String) :
    Prop where
  paths : ∀ entry ∈ ignores, Glob.isGlob entry = false →
    ¬ Path.components (Path.join base entry) <+: Path.components path
  patterns : ∀ entry ∈ ignores, Glob.isGlob entry = true → ¬ MatchedBy entry path
  tests : ignoreTests = true → ∀ text ∈ testPatterns, ¬ MatchedBy text path

theorem any_patternsOf_iff {texts : List String} {path : String} :
    (IgnoreSet.patternsOf texts).any (·.isMatch path.toList) = true ↔
      ∃ text ∈ texts, MatchedBy text path := by
  rw [List.any_eq_true]
  constructor
  · rintro ⟨p, hp, hmatch⟩
    obtain ⟨text, htext, hparse⟩ := List.mem_filterMap.1 hp
    refine ⟨text, htext, p, ?_, Glob.Pattern.isMatch_iff.1 hmatch⟩
    cases hresult : Glob.Pattern.parse text with
    | error e =>
      rw [hresult] at hparse
      cases hparse
    | ok q =>
      rw [hresult] at hparse
      cases hparse
      rfl
  · rintro ⟨text, htext, p, hparse, hmatch⟩
    refine ⟨p, List.mem_filterMap.2 ⟨text, htext, ?_⟩, Glob.Pattern.isMatch_iff.2 hmatch⟩
    rw [hparse]
    rfl

theorem ignores_eq_false_iff {base path : String} {entries : List String} {ignoreTests : Bool} :
    (IgnoreSet.ofEntries base entries ignoreTests).ignores path = false ↔
      Kept base entries ignoreTests path := by
  have hpaths : ((entries.filter (!Glob.isGlob ·)).map (Path.join base)).any (Path.startsWith path)
      = true ↔ ∃ entry ∈ entries, Glob.isGlob entry = false ∧
        Path.components (Path.join base entry) <+: Path.components path := by
    simp [Path.startsWith]
  have hpatterns : (IgnoreSet.patternsOf (entries.filter Glob.isGlob)).any (·.isMatch path.toList)
      = true ↔ ∃ entry ∈ entries.filter Glob.isGlob, MatchedBy entry path := any_patternsOf_iff
  have htests : (if ignoreTests then IgnoreSet.patternsOf testPatterns else []).any
      (·.isMatch path.toList) = true ↔
        ignoreTests = true ∧ ∃ text ∈ testPatterns, MatchedBy text path := by
    cases ignoreTests with
    | false => simp
    | true => simpa using any_patternsOf_iff
  rw [← Bool.not_eq_true, IgnoreSet.ignores, IgnoreSet.ofEntries, List.any_append, Bool.or_eq_true,
    Bool.or_eq_true, hpaths, hpatterns, htests]
  simp only [List.mem_filter, not_or, not_exists, not_and, and_imp]
  exact ⟨fun h => ⟨h.1, h.2.1, h.2.2⟩, fun h => ⟨h.paths, h.patterns, h.tests⟩⟩

theorem mem_files_iff {fs : FileSystem} (hfs : fs.IsLinkFreeTree) {base path : String}
    {includes ignores : List String} {ignoreTests : Bool} :
    path ∈ (run fs base includes ignores ignoreTests).files ↔
      ∃ root, IsRoot fs base includes root ∧ Finds fs root path ∧
        Kept base ignores ignoreTests path ∧ isSource path = true := by
  dsimp only [run]
  rw [StringSet.mem_ofList, List.mem_flatMap]
  simp only [mem_filesOf_iff, mem_roots_iff hfs, ignores_eq_false_iff]

theorem accessEvent?_eq_none_iff {fs : FileSystem} (hfs : fs.LinkFree) {root : String} :
    accessEvent? fs root = none ↔ fs.pathExists root = true := by
  have hlink : ∀ loc target, fs.stat root ≠ .ok (loc, .link target) := fun loc target hstat =>
    hfs _ target ((stat_eq_ok_iff hfs).1 hstat).2.2.2
  rw [accessEvent?, walk, statLink_eq_stat hfs, pathExists]
  cases hstat : fs.stat root with
  | error e => simp [bind, Except.bind, Except.toBool]
  | ok found =>
    obtain ⟨loc, e⟩ := found
    cases e with
    | link target => exact absurd hstat (hlink loc target)
    | file content => simp [bind, Except.bind, Except.toBool, pure, Except.pure]
    | directory => simp [bind, Except.bind, Except.toBool, pure, Except.pure]

theorem skipped_run {fs : FileSystem} (hfs : fs.IsLinkFreeTree) (base : String)
    (includes ignores : List String) (ignoreTests : Bool) :
    (run fs base includes ignores ignoreTests).skipped =
      if includes = [] ∧ fs.pathExists base = false then 1 else 0 := by
  dsimp only [run]
  cases includes with
  | nil =>
    rw [roots, List.isEmpty_nil, if_pos rfl, List.filterMap_cons, List.filterMap_nil]
    cases hexists : fs.pathExists base with
    | true => simp [(accessEvent?_eq_none_iff hfs.linkFree).2 hexists]
    | false =>
      have hne : accessEvent? fs base ≠ none := by
        rw [Ne, accessEvent?_eq_none_iff hfs.linkFree, hexists]
        exact Bool.false_ne_true
      obtain ⟨event, hevent⟩ := Option.ne_none_iff_exists'.1 hne
      simp [hevent]
  | cons first rest =>
    rw [if_neg (by simp), List.length_eq_zero_iff, List.filterMap_eq_nil_iff]
    intro root hroot
    rw [accessEvent?_eq_none_iff hfs.linkFree]
    exact pathExists_of_isRoot hfs.linkFree (List.cons_ne_nil first rest)
      ((mem_roots_iff hfs).1 hroot)

theorem IsRoot.congr {fs : FileSystem} {base root : String} {includes includes' : List String}
    (hincludes : ∀ entry, entry ∈ includes' ↔ entry ∈ includes)
    (h : IsRoot fs base includes root) : IsRoot fs base includes' root := by
  rcases h with ⟨rfl, rfl⟩ | ⟨entry, hentry, hroot⟩
  · exact .inl ⟨List.eq_nil_iff_forall_not_mem.2 fun entry => by simp [hincludes], rfl⟩
  · exact .inr ⟨entry, (hincludes entry).2 hentry, hroot⟩

theorem Kept.congr {base path : String} {ignores ignores' : List String} {ignoreTests : Bool}
    (hignores : ∀ entry, entry ∈ ignores' ↔ entry ∈ ignores)
    (h : Kept base ignores ignoreTests path) : Kept base ignores' ignoreTests path where
  paths entry hentry := h.paths entry ((hignores entry).1 hentry)
  patterns entry hentry := h.patterns entry ((hignores entry).1 hentry)
  tests := h.tests

/-- A scan finds a path exactly if it leads from a root to a regular file at or below it that is
named like a source file, and no rule ignores that path. Rules that ignore a directory on the way do
not count. The result is the same for the same entries in any order and number. -/
theorem scan_sound_and_complete (fs : FileSystem) (hfs : fs.WellFormed) (base : String)
    (includes ignores : List String) (ignoreTests : Bool) :
    (∀ path, path ∈ (run fs base includes ignores ignoreTests).files ↔
      ∃ root loc, IsRoot fs base includes root ∧ FileBelow fs root path loc ∧
        (∃ name, loc.getLast? = some name ∧ IsSourceName name) ∧
        Kept base ignores ignoreTests path) ∧
    ∀ includes' ignores', (∀ entry, entry ∈ includes' ↔ entry ∈ includes) →
      (∀ entry, entry ∈ ignores' ↔ entry ∈ ignores) →
      (run fs base includes' ignores' ignoreTests).files =
          (run fs base includes ignores ignoreTests).files ∧
        (run fs base includes' ignores' ignoreTests).skipped =
          (run fs base includes ignores ignoreTests).skipped := by
  refine ⟨fun path => ?_, fun includes' ignores' hincludes hignores => ⟨?_, ?_⟩⟩
  · rw [mem_files_iff hfs.toIsLinkFreeTree]
    constructor
    · rintro ⟨root, hroot, hfinds, hkept, hsource⟩
      obtain ⟨loc, hbelow⟩ := (finds_iff_fileBelow hfs).1 hfinds
      have hname := (isSource_iff_of_fileBelow hfs hbelow).1 hsource
      exact ⟨root, loc, hroot, hbelow, hname, hkept⟩
    · rintro ⟨root, loc, hroot, hbelow, hname, hkept⟩
      exact ⟨root, hroot, (finds_iff_fileBelow hfs).2 ⟨loc, hbelow⟩, hkept,
        (isSource_iff_of_fileBelow hfs hbelow).2 hname⟩
  · refine StringSet.ext fun path => ?_
    rw [mem_files_iff hfs.toIsLinkFreeTree, mem_files_iff hfs.toIsLinkFreeTree]
    have hroots : ∀ root, IsRoot fs base includes' root ↔ IsRoot fs base includes root :=
      fun root => ⟨.congr fun entry => (hincludes entry).symm, .congr hincludes⟩
    have hkept : Kept base ignores' ignoreTests path ↔ Kept base ignores ignoreTests path :=
      ⟨.congr fun entry => (hignores entry).symm, .congr hignores⟩
    simp only [hroots, hkept]
  · have hnil : includes' = [] ↔ includes = [] := by
      simp only [List.eq_nil_iff_forall_not_mem, hincludes]
    simp only [skipped_run hfs.toIsLinkFreeTree, hnil]

def ignoredDirectory : FileSystem where
  entries := [(["w"], .directory), (["w", "src"], .directory), (["w", "src", "gen"], .directory),
    (["w", "src", "gen", "a.ts"], .file "t('k');".toUTF8),
    (["w", "src", "a.test.ts"], .file "t('k');".toUTF8)]
  workingDirectory := ["w"]

theorem scan_sound_and_complete_ignoredDirectory :
    MatchedBy "?rc/gen" "src/gen" ∧
      "src/gen/a.ts" ∈ (run ignoredDirectory "./" ["sr?"] ["?rc/gen"] true).files ∧
      ∃ root loc, IsRoot ignoredDirectory "./" ["sr?"] root ∧
        FileBelow ignoredDirectory root "src/gen/a.ts" loc ∧
        (∃ name, loc.getLast? = some name ∧ IsSourceName name) ∧
        Kept "./" ["?rc/gen"] true "src/gen/a.ts" := by
  have hmem : "src/gen/a.ts" ∈ (run ignoredDirectory "./" ["sr?"] ["?rc/gen"] true).files := by
    decide +kernel
  refine ⟨⟨_, rfl, Glob.Pattern.isMatch_iff.1 (by decide +kernel)⟩, hmem, ?_⟩
  have hfs : ignoredDirectory.WellFormed :=
    wellFormed_of_entries (by decide) (by decide) (by decide)
  exact ((scan_sound_and_complete ignoredDirectory hfs "./" ["sr?"] ["?rc/gen"] true).1
    "src/gen/a.ts").1 hmem

end Scan

end MessageKeys

import MessageKeys.Project.Settings
import MessageKeys.Proofs.FoundFiles
import MessageKeys.Proofs.PatternSpelling

namespace MessageKeys.Scan

open FileSystem

section Finds

variable {fs : FileSystem} (hfs : fs.IsLinkFreeTree) {root path : String}
include hfs

theorem exists_names_of_finds (h : Finds fs root path) :
    ∃ names : List String, (∀ n ∈ names, IsName n) ∧ path = names.foldl Path.join root := by
  obtain ⟨-, -, ⟨-, rfl⟩ | ⟨-, names, content, -, hmem, rfl⟩⟩ := (finds_iff hfs.linkFree).1 h
  · exact ⟨[], by simp, rfl⟩
  · exact ⟨names, fun n hn => hfs.isName _ hmem n (List.mem_append_right _ hn), rfl⟩

theorem exists_names_of_finds_slash (hroot : root ≠ "")
    (hlast : root.toList.getLast? ≠ some '/') (h : Finds fs (root ++ "/") path) :
    ∃ names : List String, (∀ n ∈ names, IsName n) ∧ path = names.foldl Path.join root := by
  have hslash : root ++ "/" = Path.join root "" := by
    rw [Path.join_eq_lead_append root rfl, Path.lead_of_last hroot hlast, String.append_empty]
  obtain ⟨-, hreach, ⟨⟨content, hget⟩, -⟩ | ⟨-, names, content, hne, hmem, rfl⟩⟩ :=
    (finds_iff hfs.linkFree).1 h
  · -- The slash asks for a directory.
    rw [hslash, reachable_join rfl] at hreach
    rw [hslash, destination_join fs root rfl] at hget
    cases hget.symm.trans (passable_name.1 hreach.2)
  · have hnames : ∀ n ∈ names, IsName n := fun n hn =>
      hfs.isName _ hmem n (List.mem_append_right _ hn)
    exact ⟨names, hnames, Path.foldl_join_append_slash hroot hlast hne hnames⟩

end Finds

section Roots

variable {fs : FileSystem} (hfs : fs.IsLinkFreeTree) {base entry root : String}
include hfs

theorem goesOn_of_standsFor (hbase : Glob.isPlain base = true)
    (hentry : Path.isAbsolute entry = false) (hdots : ".." ∉ Glob.dotEntries entry)
    (h : Glob.StandsFor fs (Path.join base entry) root) :
    ∃ names, Glob.GoesOn fs (Glob.patternBase base) root names := by
  obtain ⟨ps, hps, hreaches⟩ := Glob.reaches_of_standsFor hbase hentry h
  refine hreaches.goesOn hfs fun p hp => ⟨?_, fun hmem => hdots ?_⟩
  · exact Glob.isPiece_of_mem_collapse (Glob.mapM_eq_ok_iff.2 hps) p hp
  · exact Glob.specialNames_subset hentry hps hp hmem

theorem destination_of_isRoot {includes : List String}
    (hrelative : ∀ entry ∈ includes, Path.isAbsolute entry = false ∧ ".." ∉ Path.components entry)
    (hpatterns : ∀ entry ∈ includes, Glob.isGlob entry = true →
      Glob.isPlain base = true ∧ ".." ∉ Glob.dotEntries entry)
    (h : IsRoot fs base includes root) :
    fs.destination base <+: fs.destination root := by
  rcases h with ⟨-, rfl⟩ | ⟨entry, hentry, ⟨-, rfl, -⟩ | ⟨hglob, hstands, -⟩⟩
  · exact List.prefix_rfl
  · obtain ⟨hrel, hdots⟩ := hrelative entry hentry
    rw [Path.destination_join_names fs base hrel fun h =>
      hdots (Path.names_subset_components entry h)]
    exact List.prefix_append _ _
  · obtain ⟨hplain, hup⟩ := hpatterns entry hentry hglob
    obtain ⟨names, hgoes⟩ := goesOn_of_standsFor hfs hplain (hrelative entry hentry).1 hup
      hstands
    rw [hgoes.destination, Glob.destination_patternBase]
    exact List.prefix_append _ _

/-- Seen from a base without a dot at its start, they also have its components. -/
theorem components_of_isRoot {includes : List String} (hbase : base ≠ "")
    (hrelative : ∀ entry ∈ includes, Path.isAbsolute entry = false ∧ ".." ∉ Path.components entry)
    (hpatterns : ∀ entry ∈ includes, Glob.isGlob entry = true →
      (Path.components base).head? ≠ some "." ∧ Glob.isPlain base = true ∧
        ".." ∉ Glob.dotEntries entry)
    (h : IsRoot fs base includes root) :
    ∃ names : List String, fs.destination root = fs.destination base ++ names ∧
      Path.components root = Path.components base ++ names := by
  rcases h with ⟨-, rfl⟩ | ⟨entry, hentry, ⟨-, rfl, -⟩ | ⟨hglob, hstands, -⟩⟩
  · exact ⟨[], by simp, by simp⟩
  · obtain ⟨hrel, hdots⟩ := hrelative entry hentry
    have hnames : ".." ∉ Path.names entry := fun h =>
      hdots (Path.names_subset_components entry h)
    exact ⟨Path.names entry, Path.destination_join_names fs base hrel hnames,
      Path.components_join hbase hrel⟩
  · obtain ⟨hdot, hplain, hup⟩ := hpatterns entry hentry hglob
    obtain ⟨names, hgoes⟩ := goesOn_of_standsFor hfs hplain (hrelative entry hentry).1 hup
      hstands
    have hcomponents := hgoes.components
    rw [Glob.components_patternBase hdot, Glob.components_anchor] at hcomponents
    refine ⟨names, by rw [hgoes.destination, Glob.destination_patternBase], ?_⟩
    split at hcomponents
    · exact absurd (List.append_eq_nil_iff.1 hcomponents.symm).1 (Path.components_ne_nil hbase)
    · exact hcomponents

end Roots

/-- A scan with relative entries that do not go up finds only files below its base. Where patterns
are among the entries, the base has to be free of wildcards, and no piece of a pattern may stand for
two dots. -/
theorem scan_stays_inside (fs : FileSystem) (hfs : fs.WellFormed) (base : String)
    (includes ignores : List String) (ignoreTests : Bool)
    (hrelative : ∀ entry ∈ includes, Path.isAbsolute entry = false ∧ ".." ∉ Path.components entry)
    (hpatterns : ∀ entry ∈ includes, Glob.isGlob entry = true →
      Glob.isPlain base = true ∧ ".." ∉ Glob.dotEntries entry) :
    ∀ path ∈ (run fs base includes ignores ignoreTests).files,
      ∃ loc content, fs.stat path = .ok (loc, .file content) ∧ fs.destination base <+: loc := by
  intro path hpath
  obtain ⟨root, hroot, hfinds, -, -⟩ := (mem_files_iff hfs.toIsLinkFreeTree).1 hpath
  obtain ⟨loc, hbelow⟩ := (finds_iff_fileBelow hfs).1 hfinds
  obtain ⟨hpath, hreach, hloc⟩ := (locate_eq_ok_iff hfs.linkFree).1 (hbelow.resolve_eq hfs)
  obtain ⟨start, names, content, hstart, rfl, hget, -⟩ := hbelow
  refine ⟨_, content, (stat_eq_ok_iff hfs.linkFree).2 ⟨hpath, hreach, hloc, hget⟩, ?_⟩
  obtain ⟨-, -, rfl⟩ := (locate_eq_ok_iff hfs.linkFree).1 hstart
  exact (destination_of_isRoot hfs.toIsLinkFreeTree hrelative hpatterns hroot).trans
    (List.prefix_append _ _)

/-- A project with a directory whose name is a pattern for that of another one. -/
def bracketProject : FileSystem where
  entries := [(["w"], .directory), (["w", "[app]"], .directory),
    (["w", "[app]", "src"], .directory),
    (["w", "[app]", "src", "in.ts"], .file "t('k');".toUTF8), (["w", "p"], .directory),
    (["w", "p", "src"], .directory), (["w", "p", "src", "out.ts"], .file "t('k');".toUTF8)]
  workingDirectory := ["w"]

theorem scan_stays_inside_bracketProject :
    "p/src/out.ts" ∈ (run bracketProject "p/" ["s?c", "src"] [] false).files ∧
      ∀ path ∈ (run bracketProject "p/" ["s?c", "src"] [] false).files, ∃ loc content,
        bracketProject.stat path = .ok (loc, .file content) ∧
          bracketProject.destination "p/" <+: loc := by
  refine ⟨by decide +kernel, scan_stays_inside bracketProject
    (wellFormed_of_entries (by decide) (by decide) (by decide)) "p/" ["s?c", "src"] [] false ?_ ?_⟩
  · decide
  · decide +kernel

/-- With valid entries that are relative and have no two dots, a scan leaves a base whose name is
taken for a pattern, and any base by a pattern that stands for two dots. -/
theorem not_inside_bracketProject :
    Settings.validate { includes := ["s?c", ".*"] } = .ok () ∧
      (∀ entry ∈ ["s?c", ".*"], Path.isAbsolute entry = false ∧ ".." ∉ Path.components entry) ∧
      "p/src/out.ts" ∈ (run bracketProject "[app]" ["s?c"] [] false).files ∧
      bracketProject.resolve "p/src/out.ts" = .ok ["w", "p", "src", "out.ts"] ∧
      bracketProject.resolve "[app]" = .ok ["w", "[app]"] ∧
      "p/../[app]/src/in.ts" ∈ (run bracketProject "p" [".*"] [] false).files ∧
      bracketProject.resolve "p/../[app]/src/in.ts" = .ok ["w", "[app]", "src", "in.ts"] ∧
      bracketProject.resolve "p" = .ok ["w", "p"] := by
  decide +kernel

/-- A literal entry of the ignores hides the directory that it denotes with all that is in it, from
entries that do not go up and that are spelled from the same base. Patterns spell a base in their
own way if a dot is at its start. -/
theorem literal_ignore_hides (fs : FileSystem) (hfs : fs.IsLinkFreeTree)
    (base : String) (includes ignores : List String) (ignoreTests : Bool) (hbase : base ≠ "")
    (hrelative : ∀ entry ∈ includes, Path.isAbsolute entry = false ∧ ".." ∉ Path.components entry)
    (hpatterns : ∀ entry ∈ includes, Glob.isGlob entry = true →
      (Path.components base).head? ≠ some "." ∧ Glob.isPlain base = true ∧
        ".." ∉ Glob.dotEntries entry)
    (hidden : String) (hhidden : hidden ∈ ignores) (hliteral : Glob.isGlob hidden = false)
    (hrel : Path.isAbsolute hidden = false) (hdots : ".." ∉ Path.components hidden) :
    ∀ path ∈ (run fs base includes ignores ignoreTests).files, ∀ dir loc,
      fs.resolve (Path.join base hidden) = .ok dir → fs.resolve path = .ok loc → ¬ dir <+: loc := by
  intro path hpath dir loc hdir hloc hprefix
  obtain ⟨root, hroot, hfinds, hkept, -⟩ := (mem_files_iff hfs).1 hpath
  obtain ⟨names, hdestination, hcomponents⟩ :=
    components_of_isRoot hfs hbase hrelative hpatterns hroot
  obtain ⟨more, hmore, rfl⟩ := exists_names_of_finds hfs hfinds
  have hnames : ".." ∉ Path.names hidden := fun h =>
    hdots (Path.names_subset_components hidden h)
  -- Both paths go on from the base by names, so that one denotes what is below the other only if
  -- its components begin with those of the other.
  obtain ⟨-, -, rfl⟩ := (locate_eq_ok_iff hfs.linkFree).1 hdir
  obtain ⟨-, -, rfl⟩ := (locate_eq_ok_iff hfs.linkFree).1 hloc
  rw [Path.destination_join_names fs base hrel hnames, destination_foldl_join fs root hmore,
    hdestination, List.append_assoc, List.prefix_append_right_inj] at hprefix
  refine hkept.paths hidden hhidden hliteral ?_
  rw [Path.components_join hbase hrel, Path.components_foldl_join hmore, hcomponents,
    List.append_assoc, List.prefix_append_right_inj]
  exact hprefix

def generatedProject : FileSystem where
  entries := [(["w"], .directory), (["w", "src"], .directory), (["w", "src", "pages"], .directory),
    (["w", "src", "pages", "a.ts"], .file "t('k');".toUTF8), (["w", "src", "gen"], .directory),
    (["w", "src", "gen", "b.ts"], .file "t('k');".toUTF8)]
  workingDirectory := ["w"]

theorem literal_ignore_hides_generatedProject :
    "../w/src/pages/a.ts" ∈
        (run generatedProject "../w" ["src/*", "./src"] ["src/gen"] false).files ∧
      ∀ path ∈ (run generatedProject "../w" ["src/*", "./src"] ["src/gen"] false).files, ∀ dir loc,
        generatedProject.resolve (Path.join "../w" "src/gen") = .ok dir →
          generatedProject.resolve path = .ok loc → ¬ dir <+: loc := by
  refine ⟨by decide +kernel, literal_ignore_hides generatedProject
    ⟨by decide, linkFree_of_entries (by decide)⟩ "../w" ["src/*", "./src"] ["src/gen"] false
    (by decide) ?_ ?_ "src/gen" (by decide) (by decide) (by decide) (by decide)⟩
  · decide
  · decide +kernel

/-- Reached through a pattern from a base with a dot at its start, an ignored directory is not
hidden; reached through its path, it is. -/
theorem not_hidden_generatedProject :
    Glob.isGlob "src/gen" = false ∧
      "src/gen/b.ts" ∈ (run generatedProject "./" ["src/*"] ["src/gen"] false).files ∧
      generatedProject.resolve (Path.join "./" "src/gen") = .ok ["w", "src", "gen"] ∧
      generatedProject.resolve "src/gen/b.ts" = .ok ["w", "src", "gen", "b.ts"] ∧
      ["w", "src", "gen"] <+: ["w", "src", "gen", "b.ts"] ∧
      "./src/gen/b.ts" ∉ (run generatedProject "./" ["src"] ["src/gen"] false).files := by
  decide +kernel

/-- An entry is spelled by names only; as a pattern it has no piece that stands for a dot entry. -/
def Tidy (entry : String) : Prop :=
  (∃ names, names ≠ [] ∧ (∀ n ∈ names, IsName n) ∧ Path.SpelledBy names entry) ∧
    (Glob.isGlob entry = true → Glob.dotEntries entry = [])

/-- Seen from a base, patterns spell paths as other entries do. -/
def KeepsSpelling (base : String) : Prop :=
  Path.lead (Glob.anchor (Glob.patternBase base)) = Path.lead base

instance (base : String) : Decidable (KeepsSpelling base) :=
  inferInstanceAs (Decidable (_ = _))

section Tidy

variable {fs : FileSystem} (hfs : fs.IsLinkFreeTree) {base entry path : String}
  {includes : List String}
include hfs

theorem exists_names_of_tidy_path (hentry : Tidy entry)
    (h : Finds fs (Path.join base entry) path) :
    ∃ names : List String, (∀ n ∈ names, IsName n) ∧ path = names.foldl Path.join base := by
  obtain ⟨⟨ns, hne, hns, hspelled⟩, -⟩ := hentry
  have hfound : ∃ names : List String, (∀ n ∈ names, IsName n) ∧
      path = names.foldl Path.join (ns.foldl Path.join base) := by
    rcases hspelled.join_eq hne hns base with hjoin | hjoin
    · rw [hjoin] at h
      exact exists_names_of_finds hfs h
    · obtain ⟨hroot, hlast⟩ := Path.last_foldl_join hne hns base
      rw [hjoin] at h
      exact exists_names_of_finds_slash hfs hroot hlast h
  obtain ⟨names, hnames, rfl⟩ := hfound
  exact ⟨ns ++ names, List.forall_mem_append.2 ⟨hns, hnames⟩, by rw [List.foldl_append]⟩

theorem exists_names_of_tidy_pattern {root : String} (hentry : Tidy entry)
    (hglob : Glob.isGlob entry = true) (hbase : Glob.isPlain base = true)
    (h : Glob.StandsFor fs (Path.join base entry) root) :
    ∃ names : List String, names ≠ [] ∧ (∀ n ∈ names, IsName n) ∧
      root = names.foldl Path.join (Glob.anchor (Glob.patternBase base)) := by
  obtain ⟨⟨ns, hne, hns, hspelled⟩, hdots⟩ := hentry
  have hrel := hspelled.isAbsolute_eq_false hne hns
  obtain ⟨ps, hps, hreaches⟩ := Glob.reaches_of_standsFor hbase hrel h
  have hpieces := Glob.pieces_of_spelledBy hne hns hspelled
  have hpsne : Glob.collapse ps ≠ [] := by
    rw [Ne, Glob.collapse_eq_nil_iff]
    rintro rfl
    rw [hpieces, List.forall₂_nil_right_iff] at hps
    exact hne hps
  obtain ⟨names, hnamesne, hnames, rfl⟩ := hreaches.eq_foldl hfs (fun p hp => by
    refine ⟨?_, fun cs hcs => ?_⟩
    · have hsubset := Glob.specialNames_subset hrel hps hp
      rw [hdots hglob] at hsubset
      exact List.subset_nil.1 hsubset
    · obtain ⟨piece, hpiece, hparse⟩ :=
        Glob.exists_of_mem_mapM (Glob.mapM_eq_ok_iff.2 hps) (Glob.collapse_subset _ hp)
      have hself := Glob.eq_of_literal? hparse (le_of_eq String.length_toList) hcs
      rw [hself, String.ofList_toList]
      exact hns piece (hpieces ▸ hpiece))
  exact ⟨names, hnamesne hpsne, hnames, Glob.foldl_entryPath_eq (hnamesne hpsne) hnames _⟩

/-- All paths of a scan go on by names from one spelling of the base. -/
theorem exists_spelling (hentries : ∀ entry ∈ includes, Tidy entry)
    (hplain : ∀ entry ∈ includes, Glob.isGlob entry = true → Glob.isPlain base = true)
    (hmixed : ∀ entry ∈ includes, ∀ entry' ∈ includes, Glob.isGlob entry = true →
      Glob.isGlob entry' = false → KeepsSpelling base) :
    ∃ start, fs.destination start = fs.destination base ∧
      ∀ root path, IsRoot fs base includes root → Finds fs root path →
        ∃ names : List String, (∀ n ∈ names, IsName n) ∧ path = names.foldl Path.join start := by
  -- From a pattern on, the names are not empty, which is why the two spellings may differ in a
  -- slash at the end.
  have hpattern : ∀ entry ∈ includes, Glob.isGlob entry = true → ∀ root path,
      Glob.StandsFor fs (Path.join base entry) root → Finds fs root path →
      ∃ names : List String, names ≠ [] ∧ (∀ n ∈ names, IsName n) ∧
        path = names.foldl Path.join (Glob.anchor (Glob.patternBase base)) := by
    intro entry hentry hglob root path hstands hfinds
    obtain ⟨names, hne, hnames, rfl⟩ := exists_names_of_tidy_pattern hfs
      (hentries entry hentry) hglob (hplain entry hentry hglob) hstands
    obtain ⟨more, hmore, rfl⟩ := exists_names_of_finds hfs hfinds
    exact ⟨names ++ more, by simp [hne], List.forall_mem_append.2 ⟨hnames, hmore⟩,
      by rw [List.foldl_append]⟩
  by_cases hall : includes ≠ [] ∧ ∀ entry ∈ includes, Glob.isGlob entry = true
  · refine ⟨Glob.anchor (Glob.patternBase base), ?_, ?_⟩
    · rw [Glob.destination_anchor, Glob.destination_patternBase]
    · rintro root path (⟨hnil, -⟩ | ⟨entry, hentry, ⟨hglob, -⟩ | ⟨hglob, hstands, -⟩⟩) hfinds
      · exact absurd hnil hall.1
      · cases hglob.symm.trans (hall.2 entry hentry)
      · obtain ⟨names, -, hnames⟩ := hpattern entry hentry hglob root path hstands hfinds
        exact ⟨names, hnames⟩
  · refine ⟨base, rfl, ?_⟩
    rintro root path (⟨-, rfl⟩ | ⟨entry, hentry, ⟨hglob, rfl, -⟩ | ⟨hglob, hstands, -⟩⟩) hfinds
    · exact exists_names_of_finds hfs hfinds
    · exact exists_names_of_tidy_path hfs (hentries entry hentry) hfinds
    · have hliteral : ∃ entry' ∈ includes, Glob.isGlob entry' = false := by
        by_contra hnone
        refine hall ⟨List.ne_nil_of_mem hentry, fun e he => ?_⟩
        cases he' : Glob.isGlob e with
        | true => rfl
        | false => exact absurd ⟨e, he, he'⟩ hnone
      obtain ⟨entry', hentry', hglob'⟩ := hliteral
      obtain ⟨names, hne, hnames, rfl⟩ := hpattern entry hentry hglob root path hstands hfinds
      exact ⟨names, hnames, Path.foldl_join_congr (hmixed entry hentry entry' hentry' hglob hglob')
        hne hnames⟩

end Tidy

/-- No file has two paths in a scan whose entries are spelled by names, unless patterns and other
entries are mixed and patterns spell the base in their own way. -/
theorem files_denote_once (fs : FileSystem) (hfs : fs.IsLinkFreeTree) (base : String)
    (includes ignores : List String) (ignoreTests : Bool)
    (hentries : ∀ entry ∈ includes, Tidy entry)
    (hplain : ∀ entry ∈ includes, Glob.isGlob entry = true → Glob.isPlain base = true)
    (hmixed : ∀ entry ∈ includes, ∀ entry' ∈ includes, Glob.isGlob entry = true →
      Glob.isGlob entry' = false → KeepsSpelling base) :
    ∀ path ∈ (run fs base includes ignores ignoreTests).files,
      ∀ path' ∈ (run fs base includes ignores ignoreTests).files,
        fs.resolve path = fs.resolve path' → path = path' := by
  intro path hpath path' hpath' hsame
  obtain ⟨root, hroot, hfinds, -, -⟩ := (mem_files_iff hfs).1 hpath
  obtain ⟨root', hroot', hfinds', -, -⟩ := (mem_files_iff hfs).1 hpath'
  obtain ⟨start, -, hspelling⟩ := exists_spelling hfs hentries hplain hmixed
  obtain ⟨names, hnames, rfl⟩ := hspelling root path hroot hfinds
  obtain ⟨names', hnames', rfl⟩ := hspelling root' path' hroot' hfinds'
  have hresolve : ∀ {root path}, Finds fs root path →
      fs.resolve path = .ok (fs.destination path) := by
    intro root path hfinds
    obtain ⟨e, hstat⟩ := stat_of_finds hfs hfinds
    obtain ⟨hne, hreach, -, -⟩ := (stat_eq_ok_iff hfs.linkFree).1 hstat
    exact (locate_eq_ok_iff hfs.linkFree).2 ⟨hne, hreach, rfl⟩
  rw [hresolve hfinds, hresolve hfinds', destination_foldl_join fs start hnames,
    destination_foldl_join fs start hnames', Except.ok.injEq, List.append_cancel_left_eq] at hsame
  rw [hsame]

theorem files_denote_once_generatedProject :
    "../w/src/gen/b.ts" ∈
        (run generatedProject "../w" ["src", "src/gen/", "s*/?en"] [] false).files ∧
      ∀ path ∈ (run generatedProject "../w" ["src", "src/gen/", "s*/?en"] [] false).files,
        ∀ path' ∈ (run generatedProject "../w" ["src", "src/gen/", "s*/?en"] [] false).files,
          generatedProject.resolve path = generatedProject.resolve path' → path = path' := by
  have hkeeps : KeepsSpelling "../w" := by decide +kernel
  refine ⟨by decide +kernel, files_denote_once generatedProject
    ⟨by decide, linkFree_of_entries (by decide)⟩ "../w" ["src", "src/gen/", "s*/?en"] [] false ?_
    (by decide +kernel) fun _ _ _ _ _ _ => hkeeps⟩
  simp only [List.forall_mem_cons, List.not_mem_nil, false_imp_iff, implies_true, and_true]
  exact ⟨⟨⟨["src"], by decide, by decide, .inl rfl⟩, by decide +kernel⟩,
    ⟨⟨["src", "gen"], by decide, by decide, .inr rfl⟩, by decide +kernel⟩,
    ⟨["s*", "?en"], by decide, by decide, .inl rfl⟩, by decide +kernel⟩

/-- A path and a pattern for the same directory, seen from a base with a dot at its start, give two
paths for one file. -/
theorem not_once_generatedProject :
    "./src/gen/b.ts" ∈ (run generatedProject "./" ["src", "src/g*"] [] false).files ∧
      "src/gen/b.ts" ∈ (run generatedProject "./" ["src", "src/g*"] [] false).files ∧
      generatedProject.resolve "./src/gen/b.ts" = .ok ["w", "src", "gen", "b.ts"] ∧
      generatedProject.resolve "src/gen/b.ts" = .ok ["w", "src", "gen", "b.ts"] := by
  decide +kernel

end MessageKeys.Scan

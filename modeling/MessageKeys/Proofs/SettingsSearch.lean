import Mathlib.Data.List.Infix
import MessageKeys.Project.Settings
import MessageKeys.Proofs.LinkFree
import MessageKeys.Proofs.Spelling

namespace MessageKeys

open FileSystem

namespace Path

theorem dropVoidEnd_eq_rdropWhile (ss : List String) : dropVoidEnd ss = ss.rdropWhile isVoid := rfl

theorem filter_dropVoidEnd (ss : List String) :
    (dropVoidEnd ss).filter (!isVoid ·) = ss.filter (!isVoid ·) := by
  induction ss using List.reverseRecOn with
  | nil => rfl
  | append_singleton ss s ih =>
    rw [dropVoidEnd_eq_rdropWhile] at ih ⊢
    by_cases hs : isVoid s = true
    · rw [List.rdropWhile_concat_pos _ _ _ hs, ih, List.filter_append,
        List.filter_cons_of_neg (by simp [hs]), List.filter_nil, List.append_nil]
    · rw [List.rdropWhile_concat_neg _ _ _ hs]

theorem filter_inner (ss : List String) :
    (dropVoidEnd (dropVoidEnd ss).dropLast).filter (!isVoid ·) =
      (ss.filter (!isVoid ·)).dropLast := by
  rw [filter_dropVoidEnd]
  induction ss using List.reverseRecOn with
  | nil => rfl
  | append_singleton ss s ih =>
    rw [dropVoidEnd_eq_rdropWhile] at ih ⊢
    by_cases hs : isVoid s = true
    · rw [List.rdropWhile_concat_pos _ _ _ hs, ih, List.filter_append,
        List.filter_cons_of_neg (by simp [hs]), List.filter_nil, List.append_nil]
    · rw [List.rdropWhile_concat_neg _ _ _ hs, List.dropLast_concat, List.filter_append,
        List.filter_cons_of_pos (by simp [hs]), List.filter_nil, List.dropLast_concat]

theorem dropVoidEnd_eq_nil_iff {ss : List String} :
    dropVoidEnd ss = [] ↔ ss.filter (!isVoid ·) = [] := by
  rw [dropVoidEnd_eq_rdropWhile, List.rdropWhile_eq_nil_iff, List.filter_eq_nil_iff]
  simp

theorem names_slash_append (path : String) : names ("/" ++ path) = names path := by
  have hlist : ("/" ++ path).toList = '/' :: path.toList := by simp
  rw [names, hlist, segments_slash, List.filter_cons_of_neg (by decide), names]

theorem names_joinSegments {ss : List String} (h : ∀ s ∈ ss, '/' ∉ s.toList) :
    names (joinSegments ss) = ss.filter (!isVoid ·) := by
  cases ss with
  | nil => rfl
  | cons s ss => rw [names, segments_joinSegments (List.cons_ne_nil s ss) h]

theorem names_parent {path p : String} (h : parent? path = some p) :
    names p = (names path).dropLast := by
  rw [parent?] at h
  split at h
  next cs hcs =>
    have hnames : names path = (segments cs).filter (!isVoid ·) := by
      rw [names, hcs, segments_slash, List.filter_cons_of_neg (by decide)]
    split at h
    · cases h
    · cases h
      have hinner := inner_begins (segments cs)
      rw [names_slash_append, hnames, ← filter_inner,
        names_joinSegments fun s hs => notMem_of_mem_segments (hinner.mem hs)]
  next hnot =>
    split at h
    · cases h
    next first rest hsegments =>
      have hnames : names path = [first].filter (!isVoid ·) ++ rest.filter (!isVoid ·) := by
        rw [names, hsegments, ← List.filter_append, List.singleton_append]
      split at h
      next hrest =>
        split at h
        · cases h
        · cases h
          rw [hnames, dropVoidEnd_eq_nil_iff.1 hrest, List.append_nil]
          cases hvoid : isVoid first <;> simp [hvoid] <;> rfl
      next hrest =>
        cases h
        have hne : rest.filter (!isVoid ·) ≠ [] := mt dropVoidEnd_eq_nil_iff.2 hrest
        have hinner : first :: dropVoidEnd (dropVoidEnd rest).dropLast <+: segments path.toList :=
          hsegments ▸ (List.prefix_cons_inj first).2 (inner_begins rest)
        rw [names_joinSegments fun s hs => notMem_of_mem_segments (hinner.mem hs),
          ← List.singleton_append, List.filter_append, filter_inner, hnames,
          List.dropLast_append_of_ne_nil hne]

theorem names_of_parent_eq_none {path : String} (h : parent? path = none) : names path = [] := by
  rw [parent?] at h
  split at h
  next cs hcs =>
    split at h
    next hvoid =>
      rw [names, hcs, segments_slash, List.filter_cons_of_neg (by decide),
        dropVoidEnd_eq_nil_iff.1 hvoid]
    · cases h
  next hnot =>
    split at h
    next hsegments => exact absurd hsegments (segments_toList_ne_nil path)
    next first rest hsegments =>
      split at h
      next hrest =>
        split at h
        next hfirst =>
          rw [names, hsegments, String.isEmpty_iff.1 hfirst, List.filter_cons_of_neg (by decide),
            dropVoidEnd_eq_nil_iff.1 hrest]
        · cases h
      · cases h

/-- A path has the names of the one around it and one more, if it has names at all. -/
theorem names_eq_append {path p : String} (hp : parent? path = some p) (h : names path ≠ []) :
    ∃ n, names path = names p ++ [n] := by
  refine ⟨(names path).getLast h, ?_⟩
  rw [names_parent hp, List.dropLast_append_getLast]

theorem length_splitSlashes_le (cs : List Char) : (splitSlashes cs).length ≤ cs.length + 1 := by
  induction cs with
  | nil => exact le_refl 1
  | cons c cs ih =>
    rw [splitSlashes.eq_def]
    grind

theorem length_names_le (path : String) : (names path).length ≤ path.length + 1 := by
  have hsegments : (segments path.toList).length ≤ path.length + 1 := by
    rw [segments, List.length_map, ← String.length_toList]
    exact length_splitSlashes_le path.toList
  exact (List.length_filter_le _ _).trans hsegments

/-- The names at the end of a path, after the last two dots. -/
def trail (path : String) : List String := (names path).rtakeWhile (· ≠ "..")

/-- The names before those, up to the last two dots. -/
def stem (path : String) : List String := (names path).rdropWhile (· ≠ "..")

theorem stem_append_trail (path : String) : stem path ++ trail path = names path :=
  List.rdropWhile_append_rtakeWhile

theorem isName_of_mem_trail {path n : String} (h : n ∈ trail path) : IsName n := by
  have hmem : n ∈ names path := (List.rtakeWhile_suffix _ _).mem h
  exact isName_of_mem_names hmem (by simpa using List.mem_rtakeWhile_imp h)

theorem stem_eq_nil {path : String} (h : ".." ∉ names path) : stem path = [] := by
  rw [stem, List.rdropWhile_eq_nil_iff]
  intro n hn
  simpa using ne_of_mem_of_not_mem hn h

end Path

namespace FileSystem

open MessageKeys.Path

theorem Passable.filter {fs : FileSystem} {ss : List String} {loc : Location}
    (h : fs.Passable loc ss) : fs.Passable loc (ss.filter (· ≠ ".")) := by
  induction ss generalizing loc with
  | nil => trivial
  | cons s ss ih =>
    by_cases hs : s = "."
    · subst hs
      exact ih h.2
    · rw [List.filter_cons_of_pos (by simpa using hs)]
      exact ⟨h.1, ih h.2⟩

/-- The path leads to a directory. The empty path stands for the working directory. -/
def LeadsToDirectory (fs : FileSystem) (path : String) : Prop :=
  fs.Reachable path ∧ fs.get? (fs.destination path) = some .directory

theorem start_parent (fs : FileSystem) {path p : String} (hp : parent? path = some p) :
    fs.start p = fs.start path := by
  rw [start, (segments_parent hp).1, start]

section Around

variable {fs : FileSystem} {path p : String}

theorem reachable_parent (h : fs.Reachable path) (hp : parent? path = some p) :
    fs.Reachable p := by
  have hstart : fs.get? (fs.start p) = some .directory := by
    rw [start_parent fs hp]
    exact directory_of_passable (steps_ne_nil path) h
  rcases (segments_parent hp).2 with rfl | rfl | hpre
  · exact passable_dots (by decide) hstart
  · exact passable_dots (by decide) hstart
  · have hsteps : steps p <+: steps path := hpre.map _
    obtain ⟨rest, hrest⟩ := hsteps
    rw [Reachable, ← hrest, passable_append] at h
    rw [Reachable, start_parent fs hp]
    exact h.1

theorem destination_parent_of_nil (hp : parent? path = some p) (h : names path = []) :
    fs.destination p = fs.destination path := by
  rw [destination_eq_names, destination_eq_names, names_parent hp, start_parent fs hp, h]
  rfl

theorem LeadsToDirectory.parent (h : fs.LeadsToDirectory path) (hp : parent? path = some p) :
    fs.LeadsToDirectory p := by
  refine ⟨reachable_parent h.1 hp, ?_⟩
  by_cases hnames : names path = []
  · rw [destination_parent_of_nil hp hnames]
    exact h.2
  · obtain ⟨n, hn⟩ := names_eq_append hp hnames
    have hpassable : fs.Passable (fs.start path) (names path) := by
      rw [names_eq_filter_steps]
      exact h.1.filter
    rw [hn, passable_append, ← start_parent fs hp, ← destination_eq_names,
      passable_name] at hpassable
    exact hpassable.2

end Around

/-- A location and those around it, from the inside to the root. -/
def around (loc : Location) : List Location := loc.inits.reverse

/-- Where a path leads if components are taken off at its end, one after the other. -/
def visited (fs : FileSystem) (path : String) : List Location :=
  (around (names path)).map (·.foldl place (fs.start path))

theorem around_concat (loc : Location) (n : String) :
    around (loc ++ [n]) = (loc ++ [n]) :: around loc := by
  rw [around, List.inits_append]
  simp [around]

theorem around_append (loc ns : Location) :
    around (loc ++ ns) = (around ns).map (loc ++ ·) ++ (around loc).tail := by
  induction ns using List.reverseRecOn with
  | nil =>
    cases loc using List.reverseRecOn with
    | nil => rfl
    | append_singleton loc n =>
      rw [List.append_nil, around_concat, List.tail_cons]
      simp [around]
  | append_singleton ns n ih =>
    rw [← List.append_assoc, around_concat, ih, around_concat, List.map_cons, List.cons_append,
      List.append_assoc]

theorem length_lt_of_mem_tail_around {loc e : Location} (h : e ∈ (around loc).tail) :
    e.length < loc.length := by
  cases loc using List.reverseRecOn with
  | nil => cases h
  | append_singleton loc n =>
    rw [around_concat, List.tail_cons, around, List.mem_reverse, List.mem_inits] at h
    have hle := h.length_le
    rw [List.length_append, List.length_singleton]
    omega

/-- The first place is where the path leads; the others are those of the path around it. -/
theorem visited_cases (fs : FileSystem) (path : String) :
    (names path = [] ∧ fs.visited path = [fs.destination path]) ∨
      ∃ p n, parent? path = some p ∧ names path = names p ++ [n] ∧
        fs.visited path = fs.destination path :: fs.visited p := by
  by_cases hnames : names path = []
  · left
    rw [visited, destination_eq_names, hnames]
    exact ⟨rfl, rfl⟩
  · right
    obtain ⟨p, hp⟩ := Option.ne_none_iff_exists'.1 (mt names_of_parent_eq_none hnames)
    obtain ⟨n, hn⟩ := names_eq_append hp hnames
    refine ⟨p, n, hp, hn, ?_⟩
    rw [visited, hn, around_concat, List.map_cons, ← hn, ← destination_eq_names, visited,
      start_parent fs hp]

/-- Where the names at the end of a path are seen from. -/
def trailStart (fs : FileSystem) (path : String) : Location :=
  (stem path).foldl place (fs.start path)

theorem destination_eq_trailStart_append (fs : FileSystem) (path : String) :
    fs.destination path = fs.trailStart path ++ trail path := by
  rw [destination_eq_names, ← stem_append_trail, List.foldl_append,
    foldl_place_of_isName fun n => isName_of_mem_trail, trailStart]

theorem around_destination (fs : FileSystem) (path : String) :
    around (fs.destination path) = (around (trail path)).map (fs.trailStart path ++ ·) ++
      (around (fs.trailStart path)).tail := by
  rw [destination_eq_trailStart_append, around_append]

/-- As long as names are taken off, the path leads to the locations around the first one. -/
theorem visited_eq (fs : FileSystem) (path : String) :
    fs.visited path = (around (trail path)).map (fs.trailStart path ++ ·) ++
      (around (stem path)).tail.map (·.foldl place (fs.start path)) := by
  have hplace : ∀ ns ∈ around (trail path),
      (stem path ++ ns).foldl place (fs.start path) = fs.trailStart path ++ ns := by
    intro ns hns
    rw [around, List.mem_reverse, List.mem_inits] at hns
    rw [List.foldl_append, ← trailStart,
      foldl_place_of_isName fun n hn => isName_of_mem_trail (hns.mem hn)]
  rw [visited, ← stem_append_trail, around_append, List.map_append, List.map_map,
    ← List.map_congr_left hplace]
  rfl

theorem tail_around_nil : (around []).tail = [] := rfl

theorem visited_of_names {fs : FileSystem} {path : String} (h : ".." ∉ names path) :
    fs.visited path = (around (trail path)).map (fs.trailStart path ++ ·) := by
  rw [visited_eq, stem_eq_nil h, tail_around_nil, List.map_nil, List.append_nil]

theorem visited_of_absolute {fs : FileSystem} {path : String} (habs : isAbsolute path = true)
    (h : ".." ∉ names path) : fs.visited path = around (fs.destination path) := by
  have hstart : fs.trailStart path = [] := by
    rw [trailStart, stem_eq_nil h, start, if_pos habs, List.foldl_nil]
  rw [visited_of_names h, around_destination, hstart, tail_around_nil, List.append_nil]

/-- Is there an entry of this name in a directory? -/
def hasEntry (fs : FileSystem) (loc : Location) (name : String) : Bool :=
  (fs.get? (loc ++ [name])).isSome

theorem pathExists_join_name {fs : FileSystem} (hfs : fs.LinkFree) {path name : String}
    (hname : IsName name) (h : fs.LeadsToDirectory path) :
    fs.pathExists (join path name) = fs.hasEntry (fs.destination path) name := by
  rw [Bool.eq_iff_iff, pathExists_iff hfs, reachable_join_name hname,
    destination_join_name hname fs path, hasEntry]
  exact ⟨fun hexists => hexists.2.2, fun hentry => ⟨join_ne_empty path hname.2.1, h, hentry⟩⟩

end FileSystem

namespace Settings

/-- The search ends in a directory with settings and where a repository begins. -/
def endsSearch (fs : FileSystem) (loc : Location) : Bool :=
  fs.hasEntry loc fileName || fs.hasEntry loc ".git"

/-- The settings of the first of these directories in which the search ends, if it has any. -/
def firstAmong (fs : FileSystem) (locs : List Location) : Option Location :=
  ((locs.find? (endsSearch fs)).filter (fs.hasEntry · fileName)).map (· ++ [fileName])

theorem firstAmong_of_ends {fs : FileSystem} {loc : Location} (locs : List Location)
    (h : endsSearch fs loc = true) :
    firstAmong fs (loc :: locs) =
      if fs.hasEntry loc fileName then some (loc ++ [fileName]) else none := by
  rw [firstAmong, List.find?_cons_of_pos h, Option.filter_some]
  split <;> rfl

theorem firstAmong_of_not_ends {fs : FileSystem} {loc : Location} (locs : List Location)
    (h : endsSearch fs loc = false) : firstAmong fs (loc :: locs) = firstAmong fs locs := by
  rw [firstAmong, List.find?_cons_of_neg (by simp [h]), firstAmong]

section Search

variable {fs : FileSystem} (hfs : fs.LinkFree) {fuel : Nat} {path : String}
  (h : fs.LeadsToDirectory path)
include hfs h

theorem findFrom_of_ends (locs : List Location)
    (hends : endsSearch fs (fs.destination path) = true) :
    (findFrom fs (fuel + 1) path).map fs.resolve =
      (firstAmong fs (fs.destination path :: locs)).map .ok := by
  rw [firstAmong_of_ends locs hends, findFrom, pathExists_join_name hfs (by decide) h,
    pathExists_join_name hfs (by decide) h]
  split
  · rw [Option.map_some, resolve_join_name hfs (by decide) h.1 h.2, Option.map_some]
  next hentry =>
    rw [endsSearch, Bool.or_eq_true, or_iff_right hentry] at hends
    rw [if_pos hends, Option.map_none, Option.map_none]

theorem findFrom_of_not_ends (hends : endsSearch fs (fs.destination path) = false) :
    findFrom fs (fuel + 1) path = (Path.parent? path).bind (findFrom fs fuel) := by
  obtain ⟨hentry, hgit⟩ := Bool.or_eq_false_iff.1 hends
  rw [findFrom, pathExists_join_name hfs (by decide) h, if_neg (by simp [hentry]),
    pathExists_join_name hfs (by decide) h, if_neg (by simp [hgit])]

theorem findFrom_of_names_nil (hnames : Path.names path = [])
    (hends : endsSearch fs (fs.destination path) = false) : findFrom fs fuel path = none := by
  induction fuel generalizing path with
  | zero => rfl
  | succ fuel ih =>
    rw [findFrom_of_not_ends hfs h hends, Option.bind_eq_none_iff]
    intro p hp
    apply ih (h.parent hp)
    · rw [Path.names_parent hp, hnames]
      rfl
    · rwa [destination_parent_of_nil hp hnames]

/-- The search goes through the places where the path leads as components are taken off. -/
theorem findFrom_map_resolve (hfuel : (Path.names path).length < fuel) :
    (findFrom fs fuel path).map fs.resolve = (firstAmong fs (fs.visited path)).map .ok := by
  -- Each step takes one name off, so the names are used up before the fuel is.
  induction fuel generalizing path with
  | zero => omega
  | succ fuel ih =>
    rcases fs.visited_cases path with ⟨hnames, hvisited⟩ | ⟨p, n, hp, hnames, hvisited⟩
    · rw [hvisited]
      cases hends : endsSearch fs (fs.destination path) with
      | true => exact findFrom_of_ends hfs h [] hends
      | false =>
        -- What is left of the path are dots, and without them it leads to the same directory.
        rw [findFrom_of_names_nil hfs h hnames hends, firstAmong_of_not_ends [] hends]
        rfl
    · rw [hvisited]
      cases hends : endsSearch fs (fs.destination path) with
      | true => exact findFrom_of_ends hfs h _ hends
      | false =>
        rw [hnames, List.length_append, List.length_singleton] at hfuel
        rw [findFrom_of_not_ends hfs h hends, hp, firstAmong_of_not_ends _ hends]
        exact ih (h.parent hp) (by omega)

end Search

/-- The nearest directory is come to if the names at the end of the path lead down from it. -/
theorem find?_visited_of_around {fs : FileSystem} {path : String} {e : Location}
    (he : (around (fs.destination path)).find? (endsSearch fs) = some e)
    (hlength : (fs.destination path).length ≤ e.length + (Path.trail path).length) :
    (fs.visited path).find? (endsSearch fs) = some e := by
  rw [around_destination, List.find?_append] at he
  rw [visited_eq, List.find?_append]
  cases hshared : ((around (Path.trail path)).map (fs.trailStart path ++ ·)).find?
      (endsSearch fs) with
  | some e' =>
    rw [hshared, Option.some_or] at he
    rw [Option.some_or, he]
  | none =>
    rw [hshared, Option.none_or] at he
    -- Directories further up are shorter than the one where the names start.
    have hlt := length_lt_of_mem_tail_around (List.mem_of_find?_eq_some he)
    rw [destination_eq_trailStart_append, List.length_append] at hlength
    omega

theorem find?_around_of_visited {fs : FileSystem} {path : String} {e : Location}
    (hdots : ".." ∉ Path.names path) (he : (fs.visited path).find? (endsSearch fs) = some e) :
    (around (fs.destination path)).find? (endsSearch fs) = some e := by
  rw [visited_of_names hdots] at he
  rw [around_destination, List.find?_append, he, Option.some_or]

/-- From a directory settings are looked for in the places where the path leads as components are
taken off. These are the directories around it as far as the names at the end of the path go. So the
settings are those of the nearest directory in which the search has to end, if that one is not
further away, and in any case if the path starts at the root and has no two dots. A relative path
without two dots leads to these settings or to none. -/
theorem resolve_found_settings (fs : FileSystem) (hfs : fs.LinkFree) (path : String) (d : Location)
    (hd : fs.stat path = .ok (d, .directory)) :
    (find? fs path).map fs.resolve = (firstAmong fs (fs.visited path)).map .ok ∧
    (∀ e, (around d).find? (endsSearch fs) = some e →
      d.length ≤ e.length + (Path.trail path).length →
      (find? fs path).map fs.resolve = (firstAmong fs (around d)).map .ok) ∧
    (".." ∉ Path.components path →
      (Path.isAbsolute path = true →
        (find? fs path).map fs.resolve = (firstAmong fs (around d)).map .ok) ∧
      ∀ found, find? fs path = some found →
        (firstAmong fs (around d)).map .ok = some (fs.resolve found)) := by
  obtain ⟨-, hreach, rfl, hdir⟩ := (stat_eq_ok_iff hfs).1 hd
  have hsearch : (find? fs path).map fs.resolve = (firstAmong fs (fs.visited path)).map .ok := by
    have hnames := Path.length_names_le path
    exact findFrom_map_resolve hfs ⟨hreach, hdir⟩ (by omega)
  refine ⟨hsearch, fun e he hlength => ?_, fun hdots => ?_⟩
  · rw [hsearch, firstAmong, find?_visited_of_around he hlength, firstAmong, he]
  have hnames : ".." ∉ Path.names path := fun hmem =>
    hdots (Path.names_subset_components path hmem)
  constructor
  · intro habs
    rw [hsearch, visited_of_absolute habs hnames]
  · intro found hfound
    rw [hfound, Option.map_some, firstAmong] at hsearch
    cases he : (fs.visited path).find? (endsSearch fs) with
    | none =>
      rw [he] at hsearch
      cases hsearch
    | some e => rw [hsearch, he, firstAmong, find?_around_of_visited hnames he]

/-- Settings in two directories, one inside the other, and a working directory between them. -/
def nestedSettings : FileSystem where
  entries := [(["p"], .directory), (["p", fileName], .file "\x7b\x7d".toUTF8),
    (["p", "w"], .directory), (["p", "w", "a"], .directory),
    (["p", "w", "a", fileName], .file "\x7b\x7d".toUTF8)]
  workingDirectory := ["p", "w"]

theorem resolve_found_settings_nestedSettings :
    nestedSettings.stat "../../p/./w/" = .ok (["p", "w"], .directory) ∧
      find? nestedSettings "../../p/./w/" = some "../../p/.keyscanrc.json" ∧
      (find? nestedSettings "../../p/./w/").map nestedSettings.resolve =
        some (.ok ["p", fileName]) ∧
      (find? nestedSettings "/p/w").map nestedSettings.resolve = some (.ok ["p", fileName]) ∧
      find? nestedSettings "a" = some "a/.keyscanrc.json" ∧
      nestedSettings.resolve "a/.keyscanrc.json" = .ok ["p", "w", "a", fileName] := by
  have hfs : nestedSettings.LinkFree := linkFree_of_entries (by decide)
  have hstat : nestedSettings.stat "../../p/./w/" = .ok (["p", "w"], .directory) := by
    decide +kernel
  have hfound : find? nestedSettings "a" = some "a/.keyscanrc.json" := by decide +kernel
  refine ⟨hstat, by decide +kernel, ?_, ?_, hfound, ?_⟩
  · have h := (resolve_found_settings nestedSettings hfs _ _ hstat).2.1 ["p"] (by decide +kernel)
      (by decide +kernel)
    exact h.trans (by decide +kernel)
  · have h := (resolve_found_settings nestedSettings hfs "/p/w" ["p", "w"]
      (by decide +kernel)).2.2 (by decide +kernel)
    exact (h.1 (by decide +kernel)).trans (by decide +kernel)
  · have h := (resolve_found_settings nestedSettings hfs "a" ["p", "w", "a"]
      (by decide +kernel)).2.2 (by decide +kernel)
    exact Option.some.inj ((h.2 _ hfound).symm.trans (by decide +kernel))

/-- Two dots at the end of a path are taken off as a name is, which leads into a directory instead
of out of it. A relative path is used up at the working directory, so those around it are not
looked into. -/
theorem not_around_nestedSettings :
    nestedSettings.stat "a/.." = .ok (["p", "w"], .directory) ∧
      nestedSettings.stat "." = .ok (["p", "w"], .directory) ∧
      firstAmong nestedSettings (around ["p", "w"]) = some ["p", fileName] ∧
      (find? nestedSettings "a/..").map nestedSettings.resolve =
        some (.ok ["p", "w", "a", fileName]) ∧
      find? nestedSettings "." = none := by
  decide +kernel

end Settings

end MessageKeys

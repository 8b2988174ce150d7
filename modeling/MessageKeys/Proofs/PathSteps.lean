import Mathlib.Data.List.DropRight
import MessageKeys.Proofs.FileAccess

namespace MessageKeys.Path

theorem notMem_of_mem_splitSlashes {cs s : List Char} (h : s ∈ splitSlashes cs) : '/' ∉ s := by
  induction cs generalizing s with
  | nil =>
    rw [List.mem_singleton.1 h]
    exact List.not_mem_nil
  | cons c cs ih =>
    obtain ⟨t, ts, hts⟩ := List.exists_cons_of_ne_nil (FileSystem.splitSlashes_ne_nil cs)
    rw [hts] at ih
    by_cases hc : c = '/'
    · subst hc
      rw [splitSlashes, hts] at h
      rcases List.mem_cons.1 h with rfl | h
      · exact List.not_mem_nil
      · exact ih h
    · simp only [splitSlashes, hts] at h
      rcases List.mem_cons.1 h with rfl | h
      · simpa [eq_comm, hc] using ih List.mem_cons_self
      · exact ih (List.mem_cons_of_mem _ h)

theorem notMem_of_mem_segments {cs : List Char} {s : String} (h : s ∈ segments cs) :
    '/' ∉ s.toList := by
  obtain ⟨t, ht, rfl⟩ := List.mem_map.1 h
  rw [String.toList_ofList]
  exact notMem_of_mem_splitSlashes ht

theorem segments_append (cs ds : List Char) :
    segments (cs ++ '/' :: ds) = segments cs ++ segments ds := by
  rw [segments, FileSystem.splitSlashes_append, List.map_append]
  rfl

theorem segments_joinSegments {ss : List String} (hne : ss ≠ [])
    (h : ∀ s ∈ ss, '/' ∉ s.toList) : segments (joinSegments ss).toList = ss := by
  induction ss with
  | nil => exact absurd rfl hne
  | cons s ss ih =>
    have hs : segments s.toList = [s] := by
      rw [segments, FileSystem.splitSlashes_of_notMem (h s List.mem_cons_self)]
      simp
    cases ss with
    | nil => rwa [joinSegments, String.intercalate_singleton]
    | cons t ts =>
      have hrest := ih (by simp) fun u hu => h u (List.mem_cons_of_mem _ hu)
      have hlist : (joinSegments (s :: t :: ts)).toList =
          s.toList ++ '/' :: (joinSegments (t :: ts)).toList := by
        simp [joinSegments]
      rw [hlist, segments_append, hs, hrest, List.singleton_append]

theorem isAbsolute_iff {path : String} :
    isAbsolute path = true ↔ ∃ s ss, segments path.toList = "" :: s :: ss := by
  rw [isAbsolute, beq_iff_eq]
  cases path.toList with
  | nil => simp [segments, splitSlashes]
  | cons c cs =>
    obtain ⟨t, ts, hts⟩ := List.exists_cons_of_ne_nil (FileSystem.splitSlashes_ne_nil cs)
    by_cases hc : c = '/'
    · subst hc
      simp [segments, splitSlashes, hts]
    · simp [segments, splitSlashes, hts, hc]

/-- A path that does not start at the root has a first segment, unless it has no other. -/
theorem first_ne_empty {path first : String} {rest : List String}
    (h : segments path.toList = first :: rest) (hrel : isAbsolute path = false)
    (hrest : rest ≠ []) : first ≠ "" := by
  rintro rfl
  obtain ⟨s, ss, rfl⟩ := List.exists_cons_of_ne_nil hrest
  rw [isAbsolute_iff.2 ⟨s, ss, h⟩] at hrel
  cases hrel

theorem inner_begins (ss : List String) : dropVoidEnd (dropVoidEnd ss).dropLast <+: ss :=
  (List.rdropWhile_prefix isVoid _).trans
    ((List.dropLast_prefix _).trans (List.rdropWhile_prefix isVoid ss))

theorem segments_toList_ne_nil (path : String) : segments path.toList ≠ [] := by
  rw [segments, Ne, List.map_eq_nil_iff]
  exact FileSystem.splitSlashes_ne_nil _

theorem isAbsolute_eq_false {path : String} (h : ∀ cs, path.toList = '/' :: cs → False) :
    isAbsolute path = false := by
  rw [isAbsolute, beq_eq_false_iff_ne]
  intro hhead
  obtain ⟨cs, hcs⟩ := List.head?_eq_some_iff.1 hhead
  exact h cs hcs

theorem segments_parent {path p : String} (h : parent? path = some p) :
    isAbsolute p = isAbsolute path ∧
      (p = "" ∨ p = "/" ∨ segments p.toList <+: segments path.toList) := by
  rw [parent?] at h
  split at h
  next cs hcs =>
    have hlist : ∀ t : String, ("/" ++ t).toList = [] ++ '/' :: t.toList := fun t => by simp
    split at h
    · cases h
    · cases h
      refine ⟨by rw [isAbsolute, hlist, isAbsolute, hcs]; rfl, .inr ?_⟩
      have hpre := inner_begins (segments cs)
      cases hinner : dropVoidEnd (dropVoidEnd (segments cs)).dropLast with
      | nil => exact .inl rfl
      | cons s ss =>
        rw [hinner] at hpre
        right
        rw [hlist, segments_append, hcs, ← List.nil_append ('/' :: cs), segments_append,
          segments_joinSegments (List.cons_ne_nil s ss) fun t ht =>
            notMem_of_mem_segments (hpre.mem ht)]
        exact (List.prefix_append_right_inj _).2 hpre
  next hnot =>
    have hrel : isAbsolute path = false := isAbsolute_eq_false hnot
    split at h
    · cases h
    next first rest hseg =>
      split at h
      next hrest =>
        split at h
        · cases h
        · cases h
          exact ⟨hrel.symm ▸ rfl, .inl rfl⟩
      next hrest =>
        cases h
        have hpre : first :: dropVoidEnd (dropVoidEnd rest).dropLast <+: segments path.toList :=
          hseg ▸ (List.prefix_cons_inj first).2 (inner_begins rest)
        have hjoin := segments_joinSegments (List.cons_ne_nil _ _) fun s hs =>
          notMem_of_mem_segments (hpre.mem hs)
        have hfirst : first ≠ "" := first_ne_empty hseg hrel fun h => hrest (by rw [h]; rfl)
        refine ⟨?_, .inr (.inr (hjoin.symm ▸ hpre))⟩
        rw [hrel, Bool.eq_false_iff, Ne, isAbsolute_iff, hjoin]
        rintro ⟨s, ss, h⟩
        exact hfirst (List.cons.inj h).1

end MessageKeys.Path

namespace MessageKeys.FileSystem

theorem steps_ne_nil (path : String) : steps path ≠ [] := by
  rw [steps, Ne, List.map_eq_nil_iff]
  exact Path.segments_toList_ne_nil path

theorem steps_of_toList {path : String} (cs ds : List Char) (h : path.toList = cs ++ '/' :: ds) :
    steps path = steps (String.ofList cs) ++ steps (String.ofList ds) := by
  rw [steps, h, Path.segments_append, List.map_append, steps, steps, String.toList_ofList,
    String.toList_ofList]

/-- Where a path leads if nothing on the way is a link. -/
def destination (fs : FileSystem) (path : String) : Location :=
  (steps path).foldl place (fs.start path)

/-- One of the directories that a path goes through, or its end. -/
def OnPath (fs : FileSystem) (path : String) (loc : Location) : Prop :=
  ∃ ss, ss <+: steps path ∧ loc = ss.foldl place (fs.start path)

theorem onPath_destination (fs : FileSystem) (path : String) :
    fs.OnPath path (fs.destination path) :=
  ⟨steps path, List.prefix_rfl, rfl⟩

theorem foldl_place_dots {ss : List String} (h : ∀ s ∈ ss, s = ".") (loc : Location) :
    ss.foldl place loc = loc := by
  induction ss with
  | nil => rfl
  | cons s ss ih =>
    obtain rfl : s = "." := h s List.mem_cons_self
    exact ih fun t ht => h t (List.mem_cons_of_mem _ ht)

theorem destination_empty (fs : FileSystem) : fs.destination "" = fs.workingDirectory :=
  foldl_place_dots (by decide) _

theorem onPath_of_parent {fs : FileSystem} {path p : String} {loc : Location}
    (hp : Path.parent? path = some p) (h : fs.OnPath p loc) : fs.OnPath path loc := by
  obtain ⟨habs, hsegments⟩ := Path.segments_parent hp
  obtain ⟨ss, hss, rfl⟩ := h
  have hstart : fs.start p = fs.start path := by rw [start, habs, start]
  rw [hstart]
  -- An empty path and the root have no steps but dots.
  have hdots : (∀ s ∈ steps p, s = ".") → fs.OnPath path (ss.foldl place (fs.start path)) := by
    intro h
    exact ⟨[], List.nil_prefix, foldl_place_dots (fun s hs => h s (hss.mem hs)) _⟩
  rcases hsegments with rfl | rfl | hpre
  · exact hdots (by decide)
  · exact hdots (by decide)
  · exact ⟨ss, hss.trans (hpre.map _), rfl⟩

theorem onPath_of_mem_ancestors {fs : FileSystem} {fuel : Nat} {path p : String} {loc : Location}
    (hp : p ∈ ancestors fuel path) (h : fs.OnPath p loc) : fs.OnPath path loc := by
  induction fuel generalizing path with
  | zero => cases hp
  | succ fuel ih =>
    rw [ancestors] at hp
    split at hp
    · cases hp
    · rcases List.mem_cons.1 hp with rfl | hp
      · exact h
      · cases hparent : Path.parent? path with
        | none =>
          rw [hparent] at hp
          cases hp
        | some around =>
          rw [hparent] at hp
          exact onPath_of_parent hparent (ih hp)

theorem isAbsolute_join {dir path : String} (hpath : Path.isAbsolute path = false) :
    Path.isAbsolute (Path.join dir path) = Path.isAbsolute dir := by
  rw [Path.join, hpath, Bool.false_or]
  by_cases hdir : dir = ""
  · subst hdir
    exact hpath
  · have hne : dir.toList ≠ [] := by simpa using hdir
    rw [if_neg (by simpa using hdir)]
    split <;> simp [Path.isAbsolute, List.head?_append_of_ne_nil _ hne]

theorem start_join (fs : FileSystem) (dir : String) {path : String}
    (hpath : Path.isAbsolute path = false) : fs.start (Path.join dir path) = fs.start dir := by
  rw [start, isAbsolute_join hpath, start]

/-- Seen from a directory, every path takes its steps after those of the directory. A slash at the
end of the directory is not doubled. -/
theorem exists_steps_join {dir : String} (hdir : dir ≠ "") :
    ∃ ss, (steps dir = ss ∨ steps dir = ss ++ ["."]) ∧
      ∀ path, Path.isAbsolute path = false → steps (Path.join dir path) = ss ++ steps path := by
  by_cases hlast : dir.toList.getLast? = some '/'
  · obtain ⟨cs, hcs⟩ := List.getLast?_eq_some_iff.1 hlast
    refine ⟨steps (String.ofList cs), .inr (steps_of_toList cs [] hcs), fun path hpath => ?_⟩
    have hjoin : (Path.join dir path).toList = cs ++ '/' :: path.toList := by
      simp [Path.join, hpath, hdir, hcs]
    rw [steps_of_toList cs path.toList hjoin, String.ofList_toList]
  · refine ⟨steps dir, .inl rfl, fun path hpath => ?_⟩
    have hjoin : (Path.join dir path).toList = dir.toList ++ '/' :: path.toList := by
      simp [Path.join, hpath, hdir, hlast]
    rw [steps_of_toList dir.toList path.toList hjoin, String.ofList_toList, String.ofList_toList]

theorem steps_join_relative {dir path : String} (hdir : dir ≠ "")
    (hpath : Path.isAbsolute path = false) :
    ∃ ss, (steps dir = ss ∨ steps dir = ss ++ ["."]) ∧
      steps (Path.join dir path) = ss ++ steps path := by
  obtain ⟨ss, hss, hjoin⟩ := exists_steps_join hdir
  exact ⟨ss, hss, hjoin path hpath⟩

theorem destination_join (fs : FileSystem) (dir : String) {path : String}
    (hpath : Path.isAbsolute path = false) :
    fs.destination (Path.join dir path) = (steps path).foldl place (fs.destination dir) := by
  rw [destination, destination, start_join fs dir hpath]
  by_cases hdir : dir = ""
  · subst hdir
    rw [Path.join, hpath]
    rfl
  · obtain ⟨ss, hss | hss, hjoin⟩ := steps_join_relative hdir hpath
    · rw [hjoin, hss, List.foldl_append]
    · rw [hjoin, hss, List.foldl_append, List.foldl_append]
      rfl

/-- What can name an entry of a directory. -/
def IsName (name : String) : Prop :=
  '/' ∉ name.toList ∧ name ≠ "" ∧ name ≠ "." ∧ name ≠ ".."

instance (name : String) : Decidable (IsName name) :=
  inferInstanceAs (Decidable (_ ∧ _ ∧ _ ∧ _))

section Name

variable {name : String} (hname : IsName name)
include hname

theorem IsName.isAbsolute_eq_false : Path.isAbsolute name = false := by
  rw [Path.isAbsolute, beq_eq_false_iff_ne]
  exact fun h => hname.1 (List.mem_of_mem_head? h)

theorem IsName.steps_eq : steps name = [name] := steps_name hname.1 hname.2.1

theorem IsName.place_eq (loc : Location) : place loc name = loc ++ [name] := by
  rw [place, if_neg hname.2.2.1, if_neg hname.2.2.2]

theorem destination_join_name (fs : FileSystem) (dir : String) :
    fs.destination (Path.join dir name) = fs.destination dir ++ [name] := by
  rw [destination_join fs dir hname.isAbsolute_eq_false, hname.steps_eq, List.foldl_cons,
    hname.place_eq, List.foldl_nil]

end Name

theorem steps_append_slashes (cs : List Char) (n : Nat) :
    steps (String.ofList (cs ++ List.replicate n '/')) =
      steps (String.ofList cs) ++ List.replicate n "." := by
  induction n with
  | zero => simp
  | succ n ih =>
    have h : (String.ofList (cs ++ List.replicate (n + 1) '/')).toList =
        (cs ++ List.replicate n '/') ++ '/' :: [] := by
      rw [String.toList_ofList, List.replicate_succ', List.append_assoc]
    rw [steps_of_toList _ _ h, ih, List.append_assoc, List.replicate_succ']
    rfl

theorem toList_withoutEndSlashes (path : String) :
    ∃ n, path.toList = (withoutEndSlashes path).toList ++ List.replicate n '/' ∧
      (withoutEndSlashes path = "" → n = 0) := by
  rw [withoutEndSlashes]
  split
  · exact ⟨0, by simp, fun _ => rfl⟩
  next hne =>
    set slashes := path.toList.reverse.takeWhile (· == '/')
    have hslashes : slashes.reverse = List.replicate slashes.length '/' := by
      rw [List.reverse_eq_iff, List.reverse_replicate]
      exact List.eq_replicate_of_mem fun c hc => by simpa using List.mem_takeWhile_imp hc
    refine ⟨slashes.length, ?_, fun h => absurd (by simpa using h) hne⟩
    calc path.toList = (slashes ++ path.toList.reverse.dropWhile (· == '/')).reverse := by
          rw [List.takeWhile_append_dropWhile, List.reverse_reverse]
      _ = _ := by rw [List.reverse_append, String.toList_ofList, hslashes]

theorem steps_withoutEndSlashes (path : String) :
    ∃ n, steps path = steps (withoutEndSlashes path) ++ List.replicate n "." := by
  obtain ⟨n, h, -⟩ := toList_withoutEndSlashes path
  refine ⟨n, ?_⟩
  have hsteps := steps_append_slashes (withoutEndSlashes path).toList n
  rwa [← h, String.ofList_toList, String.ofList_toList] at hsteps

theorem start_withoutEndSlashes (fs : FileSystem) (path : String) :
    fs.start (withoutEndSlashes path) = fs.start path := by
  obtain ⟨n, h, hn⟩ := toList_withoutEndSlashes path
  have habs : Path.isAbsolute (withoutEndSlashes path) = Path.isAbsolute path := by
    rw [Path.isAbsolute, Path.isAbsolute, h]
    by_cases hempty : withoutEndSlashes path = ""
    · simp [hn hempty]
    · rw [List.head?_append_of_ne_nil _ (by simpa using hempty)]
  rw [start, habs, start]

theorem destination_withoutEndSlashes (fs : FileSystem) (path : String) :
    fs.destination (withoutEndSlashes path) = fs.destination path := by
  obtain ⟨n, h⟩ := steps_withoutEndSlashes path
  rw [destination, destination, h, List.foldl_append, start_withoutEndSlashes]
  exact (foldl_place_dots (fun s hs => List.eq_of_mem_replicate hs) _).symm

end MessageKeys.FileSystem

namespace MessageKeys.Path

open FileSystem

theorem components_eq (path : String) :
    ∃ first rest, components path = first ++ rest.filter (!isVoid ·) ∧
      (segments path.toList = rest ∨
        ∃ s, isVoid s = true ∧ segments path.toList = s :: rest) := by
  rw [components]
  split
  next cs hcs =>
    refine ⟨["/"], segments cs, rfl, .inr ⟨"", rfl, ?_⟩⟩
    rw [hcs, ← List.nil_append ('/' :: cs), segments_append]
    rfl
  · split
    next ss hss => exact ⟨["."], ss, rfl, .inr ⟨".", rfl, hss⟩⟩
    · exact ⟨[], _, rfl, .inl rfl⟩

theorem getLast?_components {path name : String} {ss : List String}
    (h : segments path.toList = ss ++ [name]) (hname : isVoid name = false) :
    (components path).getLast? = some name := by
  obtain ⟨first, rest, hcomponents, hrest⟩ := components_eq path
  have hlast : rest.getLast? = some name := by
    rcases hrest with hrest | ⟨s, hs, hrest⟩
    · rw [← hrest, h, List.getLast?_concat]
    · rw [h] at hrest
      cases rest with
      | nil =>
        have hne : s ≠ name := by
          rintro rfl
          rw [hs] at hname
          cases hname
        have hlast := congrArg List.getLast? hrest
        simp [Ne.symm hne] at hlast
      | cons t ts =>
        have hlast := congrArg List.getLast? hrest
        rwa [List.getLast?_concat, List.getLast?_cons_cons, eq_comm] at hlast
  obtain ⟨ts, rfl⟩ := List.getLast?_eq_some_iff.1 hlast
  rw [hcomponents, List.filter_append, List.filter_singleton, hname, ← List.append_assoc]
  exact List.getLast?_concat

theorem fileName?_of_steps {path name : String} {ss : List String} (h : steps path = ss ++ [name])
    (hname : IsName name) : fileName? path = some name := by
  obtain ⟨hslash, hne, hdot, hdots⟩ := hname
  obtain ⟨ts, t, hts⟩ : ∃ ts t, segments path.toList = ts ++ [t] :=
    ⟨_, _, (List.dropLast_append_getLast (segments_toList_ne_nil path)).symm⟩
  have ht : (if t.isEmpty then "." else t) = name := by
    rw [steps, hts, List.map_append] at h
    exact (List.append_inj' h rfl).2 |> List.singleton_inj.1
  obtain rfl : t = name := by
    split at ht
    · exact absurd ht.symm hdot
    · exact ht
  have hvoid : isVoid t = false := by simp [isVoid, hne, hdot]
  have hroot : t ≠ "/" := by
    rintro rfl
    exact hslash (by decide)
  rw [fileName?, getLast?_components hts hvoid]
  simp [hroot, hdot, hdots]

end MessageKeys.Path

import MessageKeys.Proofs.Spelling
import MessageKeys.Terminal.Run

namespace MessageKeys

namespace FileSystem

/-- The second steps are the first ones without some of their dots. -/
inductive SkipsDots : List String → List String → Prop where
  | nil : SkipsDots [] []
  | keep (step : String) {ss ts : List String} :
      SkipsDots ss ts → SkipsDots (step :: ss) (step :: ts)
  | dot {ss ts : List String} : SkipsDots ss ts → SkipsDots ("." :: ss) ts

namespace SkipsDots

theorem refl (ss : List String) : SkipsDots ss ss := by
  induction ss with
  | nil => exact .nil
  | cons step ss ih => exact .keep step ih

theorem append {ss ts ss' ts' : List String} (h : SkipsDots ss ts) (h' : SkipsDots ss' ts') :
    SkipsDots (ss ++ ss') (ts ++ ts') := by
  induction h with
  | nil => exact h'
  | keep step _ ih => exact .keep step ih
  | dot _ ih => exact .dot ih

theorem of_dots {ss : List String} (h : ∀ step ∈ ss, step = ".") : SkipsDots ss [] := by
  induction ss with
  | nil => exact .nil
  | cons step ss ih =>
    rw [List.forall_mem_cons] at h
    obtain ⟨rfl, hss⟩ := h
    exact .dot (ih hss)

theorem of_dots_around {before after : List String} (hbefore : ∀ step ∈ before, step = ".")
    (hafter : ∀ step ∈ after, step = ".") (ss : List String) :
    SkipsDots (before ++ ss ++ after) ss := by
  have h := ((of_dots hbefore).append (refl ss)).append (of_dots hafter)
  rwa [List.nil_append, List.append_nil] at h

theorem filter_eq {ss ts : List String} (h : SkipsDots ss ts) :
    ss.filter (· ≠ ".") = ts.filter (· ≠ ".") := by
  induction h with
  | nil => rfl
  | keep step _ ih => rw [List.filter_cons, List.filter_cons, ih]
  | dot _ ih => exact ih

end SkipsDots

section Lookup

variable {fs : FileSystem} {l r : Location} {ss ts : List String}

/-- A descent that succeeds does so without some of the dots, if that holds of the links on it. -/
theorem descend_of_skipsDots
    {onLink onLink' : Location → String → List String → Except FileError Location}
    (hlink : ∀ l target rest rest' r, SkipsDots rest rest' → onLink l target rest = .ok r →
      onLink' l target rest' = .ok r)
    (hdots : SkipsDots ss ts) (h : fs.descend true onLink l ss = .ok r) :
    fs.descend true onLink' l ts = .ok r := by
  induction hdots generalizing l with
  | nil => exact h
  | keep step hrest ih =>
    have hl := directory_of_descend_ok h
    -- A last link is followed in any case, so it does not matter which steps remain after it.
    by_cases hn : ∃ target, fs.MeetsLink l step target
    · obtain ⟨target, ht⟩ := hn
      rw [descend_link hl ht, if_neg (by simp)] at h ⊢
      exact hlink l target _ _ r hrest h
    · rw [descend_place hl (not_exists.1 hn)] at h ⊢
      exact ih h
  | dot _ ih =>
    have hl := directory_of_descend_ok h
    rw [descend_place hl fun _ hmeets => hmeets.1 rfl] at h
    exact ih h

theorem resolveSteps_of_skipsDots (links : Nat) (hdots : SkipsDots ss ts)
    (h : fs.resolveSteps true links l ss = .ok r) : fs.resolveSteps true links l ts = .ok r := by
  induction links generalizing l r ss ts with
  | zero => exact descend_of_skipsDots (fun _ _ _ _ _ _ h => by cases h) hdots h
  | succ links ih =>
    refine descend_of_skipsDots (fun l target rest rest' r hrest h => ?_) hdots h
    dsimp only at h ⊢
    split at h
    · cases h
    next hne =>
      rw [if_neg hne]
      exact ih ((SkipsDots.refl (steps target)).append hrest) h

theorem resolve_of_skipsDots {path path' : String} {loc : Location}
    (hdots : SkipsDots (steps path) (steps path'))
    (habs : Path.isAbsolute path' = Path.isAbsolute path) (hne : path' ≠ "")
    (h : fs.resolve path = .ok loc) : fs.resolve path' = .ok loc := by
  have hstart : fs.start path' = fs.start path := by rw [start, habs, start]
  unfold resolve locate at h ⊢
  split at h
  · cases h
  · rw [if_neg (by simpa using hne), hstart]
    exact resolveSteps_of_skipsDots 40 hdots h

end Lookup

end FileSystem

namespace Path

open FileSystem

/-- The components of a path except for a dot at its start. -/
def properComponents (path : String) : List String := (components path).filter (· ≠ ".")

theorem filter_names (path : String) : (names path).filter (· ≠ ".") = names path := by
  rw [names_eq_filter_steps, List.filter_filter]
  simp

theorem properComponents_eq (path : String) :
    properComponents path = (if isAbsolute path then ["/"] else []) ++ names path := by
  have hsign : (sign path).filter (· ≠ ".") = if isAbsolute path then ["/"] else [] := by
    rw [sign]
    split_ifs <;> rfl
  rw [properComponents, components_eq_sign_append, List.filter_append, hsign, filter_names]

theorem properComponents_of_skipsDots {path path' : String}
    (hdots : SkipsDots (steps path) (steps path')) (habs : isAbsolute path' = isAbsolute path) :
    properComponents path' = properComponents path := by
  rw [properComponents_eq, properComponents_eq, habs, names_eq_filter_steps, ← hdots.filter_eq,
    ← names_eq_filter_steps]

theorem properComponents_join (dir : String) {path : String} (hpath : isAbsolute path = false) :
    properComponents (join dir path) = properComponents dir ++ properComponents path := by
  by_cases hdir : dir = ""
  · subst hdir
    rw [join_empty]
    rfl
  · rw [properComponents, components_join hdir hpath, List.filter_append, filter_names,
      properComponents, properComponents_eq path, hpath]
    rfl

theorem segments_around (ss : List String) :
    ∃ before after, ss = before ++ dropVoidEnd (ss.dropWhile isVoid) ++ after ∧
      (∀ s ∈ before, isVoid s = true) ∧ ∀ s ∈ after, isVoid s = true := by
  refine ⟨ss.takeWhile isVoid, (ss.dropWhile isVoid).rtakeWhile isVoid, ?_, fun s hs => ?_,
    fun s hs => ?_⟩
  · have hend : dropVoidEnd (ss.dropWhile isVoid) ++ (ss.dropWhile isVoid).rtakeWhile isVoid =
        ss.dropWhile isVoid := List.rdropWhile_append_rtakeWhile
    rw [List.append_assoc, hend, List.takeWhile_append_dropWhile]
  · exact List.mem_takeWhile_imp hs
  · exact List.mem_rtakeWhile_imp hs

theorem dots_of_isVoid {ss : List String} (h : ∀ s ∈ ss, isVoid s = true) :
    ∀ step ∈ ss.map (fun s => if s.isEmpty then "." else s), step = "." := by
  intro step hstep
  obtain ⟨s, hs, rfl⟩ := List.mem_map.1 hstep
  have hvoid := h s hs
  simp only [isVoid, Bool.or_eq_true, beq_iff_eq] at hvoid
  rcases hvoid with rfl | rfl <;> rfl

theorem isVoid_head {ss ts : List String} {s : String}
    (h : dropVoidEnd (ss.dropWhile isVoid) = s :: ts) : isVoid s = false := by
  have hbegins : s :: ts <+: ss.dropWhile isVoid := h ▸ List.rdropWhile_prefix isVoid _
  obtain ⟨us, hus⟩ := hbegins
  have hhead := List.head?_dropWhile_not isVoid ss
  rw [← hus] at hhead
  simpa using hhead

theorem afterDot?_spec {path rest : String} (h : afterDot? path = some rest) :
    isAbsolute rest = false ∧ SkipsDots (steps path) (steps rest) := by
  rw [afterDot?] at h
  split at h
  next ss hss =>
    cases h
    obtain ⟨before, after, hsplit, hbefore, hafter⟩ := segments_around ss
    rw [steps, hss, List.map_cons]
    cases hcore : dropVoidEnd (ss.dropWhile isVoid) with
    | nil =>
      -- Nothing is left but the dot itself, for an empty path asks for a directory as well.
      have hvoid : ∀ s ∈ ss, isVoid s = true := by
        rw [hsplit, hcore, List.append_nil]
        exact List.forall_mem_append.2 ⟨hbefore, hafter⟩
      exact ⟨rfl, .keep "." (.of_dots (dots_of_isVoid hvoid))⟩
    | cons s ts =>
      rw [hcore] at hsplit
      have hslash : ∀ t ∈ s :: ts, '/' ∉ t.toList := by
        intro t ht
        have hmem : t ∈ segments path.toList := by
          rw [hss, hsplit]
          exact List.mem_cons_of_mem _ (List.mem_append_left _ (List.mem_append_right _ ht))
        exact notMem_of_mem_segments hmem
      have hsegments := segments_joinSegments (List.cons_ne_nil s ts) hslash
      constructor
      · rw [Bool.eq_false_iff, ne_eq, isAbsolute_iff, hsegments]
        rintro ⟨_, _, hroot⟩
        have hvoid := isVoid_head hcore
        rw [(List.cons.inj hroot).1] at hvoid
        cases hvoid
      · rw [hsplit, steps, hsegments, List.map_append, List.map_append]
        exact .dot (.of_dots_around (dots_of_isVoid hbefore) (dots_of_isVoid hafter) _)
  · cases h

theorem afterDot?_getD {path : String} (hpath : isAbsolute path = false) :
    isAbsolute ((afterDot? path).getD path) = false ∧
      SkipsDots (steps path) (steps ((afterDot? path).getD path)) := by
  cases h : afterDot? path with
  | none => exact ⟨hpath, .refl _⟩
  | some rest => exact afterDot?_spec h

theorem join_absolute (dir : String) {path : String} (h : isAbsolute path = true) :
    join dir path = path := by
  simp [join, h]

theorem skipsDots_join (dir : String) {path path' : String} (hpath : isAbsolute path = false)
    (hpath' : isAbsolute path' = false) (h : SkipsDots (steps path) (steps path')) :
    SkipsDots (steps (join dir path)) (steps (join dir path')) := by
  by_cases hdir : dir = ""
  · subst hdir
    rwa [join_empty, join_empty]
  · obtain ⟨ss, -, hjoin⟩ := exists_steps_join hdir
    rw [hjoin path hpath, hjoin path' hpath']
    exact (SkipsDots.refl ss).append h

theorem skipsDots_join_dots {dir path : String} (hdir : ∀ step ∈ steps dir, step = ".")
    (hpath : isAbsolute path = false) :
    SkipsDots (steps (join dir path)) (steps path) := by
  by_cases hempty : dir = ""
  · subst hempty
    rw [join_empty]
    exact .refl _
  · obtain ⟨ss, hss, hjoin⟩ := exists_steps_join hempty
    have hdots : ∀ step ∈ ss, step = "." := by
      intro step hstep
      apply hdir
      rcases hss with hss | hss
      · rwa [hss]
      · rw [hss]
        exact List.mem_append_left _ hstep
    rw [hjoin path hpath]
    exact (SkipsDots.of_dots hdots).append (.refl _)

end Path

namespace Terminal

open FileSystem

theorem skipsDots_resolveFromRoot (root path : String) :
    SkipsDots (steps (Path.join root path)) (steps (resolveFromRoot root path)) ∧
      Path.isAbsolute (resolveFromRoot root path) = Path.isAbsolute (Path.join root path) := by
  unfold resolveFromRoot
  by_cases habs : Path.isAbsolute path = true
  · rw [if_pos habs, Path.join_absolute root habs]
    exact ⟨.refl _, rfl⟩
  rw [if_neg habs]
  rw [Bool.not_eq_true] at habs
  by_cases hcurrent : (Path.components root).all (· == ".") = true
  · obtain ⟨hroot, hdots⟩ := Path.dots_of_components hcurrent
    rw [if_pos hcurrent, isAbsolute_join habs, hroot, habs]
    exact ⟨Path.skipsDots_join_dots hdots habs, rfl⟩
  · rw [if_neg hcurrent]
    obtain ⟨hrel, hdots⟩ := Path.afterDot?_getD habs
    refine ⟨Path.skipsDots_join root habs hrel hdots, ?_⟩
    rw [isAbsolute_join hrel, isAbsolute_join habs]

theorem resolveFromRoot_ne_empty (root : String) {path : String} (hpath : path ≠ "") :
    resolveFromRoot root path ≠ "" := by
  unfold resolveFromRoot
  split_ifs with habs hcurrent
  · exact hpath
  · exact hpath
  · have hroot : root ≠ "" := by
      rintro rfl
      exact hcurrent rfl
    have hrel := (Path.afterDot?_getD (Bool.eq_false_iff.2 habs)).1
    rw [Path.join, hrel, Bool.false_or, if_neg (by simpa using hroot)]
    split <;> simp [hroot]

/-- Dots aside, a resolved path has the components of the root, unless the path is absolute, and then
those of the path. Where the path leads from the root, the resolved one leads as well, except that
an empty path leads nowhere. -/
theorem resolveFromRoot_denotes (root path : String) :
    Path.properComponents (resolveFromRoot root path) =
        (if Path.isAbsolute path then [] else Path.properComponents root) ++
          Path.properComponents path ∧
      ∀ (fs : FileSystem) (loc : Location), path ≠ "" →
        fs.resolve (Path.join root path) = .ok loc →
          fs.resolve (resolveFromRoot root path) = .ok loc := by
  obtain ⟨hdots, habs⟩ := skipsDots_resolveFromRoot root path
  refine ⟨?_, fun fs loc hpath h => ?_⟩
  · rw [Path.properComponents_of_skipsDots hdots habs]
    by_cases hroot : Path.isAbsolute path = true
    · rw [Path.join_absolute root hroot, if_pos hroot, List.nil_append]
    · rw [if_neg hroot]
      exact Path.properComponents_join root (Bool.eq_false_iff.2 hroot)
  · exact resolve_of_skipsDots hdots habs (resolveFromRoot_ne_empty root hpath) h

def linkedSite : FileSystem where
  entries := [(["home"], .directory), (["home", "web"], .link "/srv/site"), (["srv"], .directory),
    (["srv", "site"], .directory), (["srv", "keys"], .directory)]
  workingDirectory := ["home"]

/-- Two dots go up from where the link leads. -/
theorem resolveFromRoot_denotes_linkedSite :
    Path.properComponents (resolveFromRoot "./web//" ".//./../keys/.") = ["web", "..", "keys"] ∧
      linkedSite.resolve (resolveFromRoot "./web//" ".//./../keys/.") = .ok ["srv", "keys"] := by
  obtain ⟨hcomponents, hresolve⟩ := resolveFromRoot_denotes "./web//" ".//./../keys/."
  exact ⟨hcomponents.trans (by decide +kernel),
    hresolve linkedSite ["srv", "keys"] (by decide) (by decide +kernel)⟩

end Terminal

end MessageKeys

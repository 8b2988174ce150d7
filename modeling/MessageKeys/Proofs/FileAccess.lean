import MessageKeys.Files.FileSystem

namespace MessageKeys.FileSystem

theorem lookup_setEntry (loc loc' : Location) (e : Entry) (entries : List (Location × Entry)) :
    (setEntry loc e entries).lookup loc' =
      if loc' = loc then some e else entries.lookup loc' := by
  induction entries with
  | nil =>
    by_cases h : loc' = loc
    · simp [setEntry, h]
    · simp [setEntry, List.lookup_cons, h, beq_eq_false_iff_ne.2 h]
  | cons entry entries ih =>
    obtain ⟨l, old⟩ := entry
    rw [setEntry]
    by_cases h : loc' = l
    · subst h
      by_cases hl : loc' = loc <;> simp [hl]
    · have hb : (loc' == l) = false := beq_eq_false_iff_ne.2 h
      by_cases hl : l = loc
      · subst hl
        simp [List.lookup_cons, hb, h]
      · simp [List.lookup_cons, hb, hl, ih]

theorem get?_set {loc : Location} (h : loc ≠ []) (fs : FileSystem) (e : Entry) (loc' : Location) :
    (fs.set loc e).get? loc' = if loc' = loc then some e else fs.get? loc' := by
  unfold get? set
  rw [lookup_setEntry]
  cases loc' with
  | nil => simp [h.symm]
  | cons name names => rfl

/-- Nothing is at the location, or a file: no path leads through it. -/
def IsPlain (fs : FileSystem) (loc : Location) : Prop :=
  fs.get? loc = none ∨ ∃ content, fs.get? loc = some (.file content)

theorem IsPlain.ne_nil {fs : FileSystem} {loc : Location} (h : fs.IsPlain loc) : loc ≠ [] := by
  rintro rfl
  rcases h with h | ⟨_, h⟩ <;> cases h

theorem splitSlashes_ne_nil (cs : List Char) : Path.splitSlashes cs ≠ [] := by
  fun_cases Path.splitSlashes cs <;> simp

theorem splitSlashes_append (cs name : List Char) :
    Path.splitSlashes (cs ++ '/' :: name) = Path.splitSlashes cs ++ Path.splitSlashes name := by
  induction cs with
  | nil => rfl
  | cons c cs ih =>
    obtain ⟨s, ss, hs⟩ := List.exists_cons_of_ne_nil (splitSlashes_ne_nil cs)
    by_cases hc : c = '/'
    · subst hc
      simp [Path.splitSlashes, ih]
    · simp [Path.splitSlashes, ih, hs]

theorem splitSlashes_of_notMem {name : List Char} (h : '/' ∉ name) :
    Path.splitSlashes name = [name] := by
  induction name with
  | nil => rfl
  | cons c cs ih =>
    rw [List.mem_cons, not_or] at h
    simp [Path.splitSlashes, ih h.2, Ne.symm h.1]

section Join

variable {name : String} (hname : '/' ∉ name.toList) (hne : name ≠ "")
include hname hne

theorem steps_name : steps name = [name] := by
  simp [steps, Path.segments, splitSlashes_of_notMem hname, hne]

theorem steps_of_toList_eq {path : String} (cs : List Char)
    (h : path.toList = cs ++ '/' :: name.toList) : ∃ ss, steps path = ss ++ [name] := by
  rw [steps, h, Path.segments, splitSlashes_append, List.map_append, List.map_append]
  exact ⟨_, congrArg _ (steps_name hname hne)⟩

theorem steps_join (dir : String) : ∃ ss, steps (Path.join dir name) = ss ++ [name] := by
  have hrel : Path.isAbsolute name = false := by
    rw [Path.isAbsolute, beq_eq_false_iff_ne]
    exact fun h => hname (List.mem_of_mem_head? h)
  rw [Path.join, hrel, Bool.false_or]
  split
  · exact ⟨[], steps_name hname hne⟩
  split
  next h =>
    obtain ⟨cs, hcs⟩ := List.getLast?_eq_some_iff.1 (eq_of_beq h)
    exact steps_of_toList_eq hname hne cs (by simp [hcs])
  · exact steps_of_toList_eq hname hne dir.toList (by simp)

end Join

section Descend

variable {fs : FileSystem} {followLast : Bool}
  {onLink : Location → String → List String → Except FileError Location}
  {l r : Location} {step : String} {rest : List String}

theorem directory_of_descend_ok (h : fs.descend followLast onLink l (step :: rest) = .ok r) :
    fs.get? l = some .directory := by
  unfold descend at h
  split at h
  · cases h
  · assumption
  · cases h

/-- Where a step leads from a directory, links left aside. -/
def place (l : Location) (step : String) : Location :=
  if step = "." then l else if step = ".." then l.dropLast else l ++ [step]

def MeetsLink (fs : FileSystem) (l : Location) (step target : String) : Prop :=
  step ≠ "." ∧ step ≠ ".." ∧ fs.get? (l ++ [step]) = some (.link target)

theorem descend_place (hl : fs.get? l = some .directory) (hn : ∀ t, ¬ fs.MeetsLink l step t) :
    fs.descend followLast onLink l (step :: rest) =
      fs.descend followLast onLink (place l step) rest := by
  rw [descend, hl, place]
  dsimp only
  split
  · rfl
  split
  · rfl
  next hdot hdots =>
    split
    next target ht => exact absurd ⟨hdot, hdots, ht⟩ (hn target)
    · rfl

theorem descend_link (hl : fs.get? l = some .directory) {target : String}
    (ht : fs.MeetsLink l step target) :
    fs.descend followLast onLink l (step :: rest) =
      if rest.isEmpty && !followLast then .ok (l ++ [step]) else onLink l target rest := by
  obtain ⟨hdot, hdots, hlink⟩ := ht
  rw [descend, hl]
  simp only [hdot, hdots, if_false, hlink]

end Descend

/-- A path that ends in a name leads to an entry of that name, unless that entry is a link. -/
theorem descend_last {fs : FileSystem} {name : String} (hdot : name ≠ ".") (hdots : name ≠ "..")
    {follow keep : Location → String → List String → Except FileError Location}
    (hlink : ∀ l target rest r, follow l target (rest ++ [name]) = .ok r →
      r.getLast? = some name ∨
        ∃ r' t, keep l target (rest ++ [name]) = .ok r' ∧ fs.get? r' = some (.link t))
    {l r : Location} {steps : List String}
    (h : fs.descend true follow l (steps ++ [name]) = .ok r) :
    r.getLast? = some name ∨
      ∃ r' t, fs.descend false keep l (steps ++ [name]) = .ok r' ∧
        fs.get? r' = some (.link t) := by
  induction steps generalizing l with
  | nil =>
    rw [List.nil_append] at h ⊢
    have hl := directory_of_descend_ok h
    by_cases hn : ∃ target, fs.MeetsLink l name target
    -- At the last step the two ways of descending part.
    · obtain ⟨target, ht⟩ := hn
      exact .inr ⟨l ++ [name], target, descend_link hl ht, ht.2.2⟩
    · rw [descend_place hl (not_exists.1 hn), place, if_neg hdot, if_neg hdots] at h
      cases h
      exact .inl (by simp)
  | cons step rest ih =>
    rw [List.cons_append] at h ⊢
    have hl := directory_of_descend_ok h
    by_cases hn : ∃ target, fs.MeetsLink l step target
    · obtain ⟨target, ht⟩ := hn
      rw [descend_link hl ht, if_neg (by simp)] at h ⊢
      exact hlink l target rest r h
    · rw [descend_place hl (not_exists.1 hn)] at h ⊢
      exact ih h

theorem resolveSteps_last {fs : FileSystem} {name : String} (hdot : name ≠ ".")
    (hdots : name ≠ "..") (links : Nat) {l r : Location} {steps : List String}
    (h : fs.resolveSteps true links l (steps ++ [name]) = .ok r) :
    r.getLast? = some name ∨
      ∃ r' t, fs.resolveSteps false links l (steps ++ [name]) = .ok r' ∧
        fs.get? r' = some (.link t) := by
  induction links generalizing l r steps with
  | zero => exact descend_last hdot hdots (fun _ _ _ _ h => by cases h) h
  | succ links ih =>
    refine descend_last hdot hdots (fun l target rest r h => ?_) h
    dsimp only at h ⊢
    split at h
    · cases h
    next hne =>
      rw [← List.append_assoc] at h ⊢
      rw [if_neg hne]
      exact ih h

def isLink (fs : FileSystem) (path : String) : Bool :=
  match fs.statLink path with
  | .ok (_, .link _) => true
  | _ => false

theorem isLink_of_locate {fs : FileSystem} {path target : String} {loc : Location}
    (h : fs.locate false path = .ok loc) (ht : fs.get? loc = some (.link target)) :
    fs.isLink path = true := by
  have hs : fs.statLink path = .ok (loc, .link target) := by
    unfold statLink
    rw [h]
    simp only [bind, Except.bind, ht]
  rw [isLink, hs]

theorem getLast?_of_resolve {fs : FileSystem} {path name : String} {ss : List String}
    (hs : steps path = ss ++ [name]) (hdot : name ≠ ".") (hdots : name ≠ "..")
    (hn : fs.isLink path = false) {loc : Location} (h : fs.resolve path = .ok loc) :
    loc.getLast? = some name := by
  unfold resolve locate at h
  split at h
  · cases h
  next hne =>
    rw [hs] at h
    rcases resolveSteps_last hdot hdots 40 h with hlast | ⟨r, t, hr, ht⟩
    · exact hlast
    · have hl : fs.locate false path = .ok r := by rw [locate, if_neg hne, hs, hr]
      rw [isLink_of_locate hl ht] at hn
      cases hn

section Set

variable {fs : FileSystem} {loc : Location} (hloc : fs.IsPlain loc) (content : ByteArray)
include hloc

theorem get?_set_of_not_plain {l : Location} {e : Entry} (h : fs.get? l = some e)
    (he : ∀ c, e ≠ .file c) : (fs.set loc (.file content)).get? l = some e := by
  rw [get?_set hloc.ne_nil, if_neg, h]
  rintro rfl
  rcases hloc with hl | ⟨c, hl⟩
  · rw [h] at hl
    cases hl
  · exact he c (Option.some.inj (h.symm.trans hl))

theorem meetsLink_set_iff {l : Location} {step target : String} :
    (fs.set loc (.file content)).MeetsLink l step target ↔ fs.MeetsLink l step target := by
  unfold MeetsLink
  refine and_congr_right fun _ => and_congr_right fun _ => ⟨fun h => ?_, fun h => ?_⟩
  · rw [get?_set hloc.ne_nil] at h
    split at h
    · cases h
    · exact h
  · exact get?_set_of_not_plain hloc content h (by simp)

/-- A descent goes the same way after a file was written, if the links on it do. -/
theorem descend_set {followLast : Bool}
    {onLink onLink' : Location → String → List String → Except FileError Location}
    (hlink : ∀ l target rest r, onLink l target rest = .ok r → onLink' l target rest = .ok r)
    {l r : Location} {steps : List String} (h : fs.descend followLast onLink l steps = .ok r) :
    (fs.set loc (.file content)).descend followLast onLink' l steps = .ok r := by
  induction steps generalizing l with
  | nil => exact h
  | cons step rest ih =>
    have hl := directory_of_descend_ok h
    have hl' := get?_set_of_not_plain hloc content hl (by simp)
    -- Directories and links stay what they are, so the step is the same one.
    by_cases hn : ∃ target, fs.MeetsLink l step target
    · obtain ⟨target, ht⟩ := hn
      rw [descend_link hl ht] at h
      rw [descend_link hl' ((meetsLink_set_iff hloc content).2 ht)]
      split at h
      next hlast => rwa [if_pos hlast]
      next hlast =>
        rw [if_neg hlast]
        exact hlink l target rest r h
    · have hn' : ∀ t, ¬ (fs.set loc (.file content)).MeetsLink l step t := fun t ht =>
        hn ⟨t, (meetsLink_set_iff hloc content).1 ht⟩
      rw [descend_place hl (not_exists.1 hn)] at h
      rw [descend_place hl' hn']
      exact ih h

theorem resolveSteps_set {followLast : Bool} (links : Nat) {l r : Location} {steps : List String}
    (h : fs.resolveSteps followLast links l steps = .ok r) :
    (fs.set loc (.file content)).resolveSteps followLast links l steps = .ok r := by
  induction links generalizing l r steps with
  | zero => exact descend_set hloc content (fun _ _ _ _ h => by cases h) h
  | succ links ih =>
    refine descend_set hloc content (fun l target rest r h => ?_) h
    dsimp only at h ⊢
    split at h
    · cases h
    next hne =>
      rw [if_neg hne]
      exact ih h

theorem locate_set {followLast : Bool} {path : String} {r : Location}
    (h : fs.locate followLast path = .ok r) :
    (fs.set loc (.file content)).locate followLast path = .ok r := by
  unfold locate at h ⊢
  split at h
  · cases h
  next hne =>
    rw [if_neg hne]
    exact resolveSteps_set hloc content 40 h

end Set

theorem write_eq_ok_iff {fs fs' : FileSystem} {path : String} {content : ByteArray} :
    fs.write path content = .ok fs' ↔
      ∃ loc, fs.resolve path = .ok loc ∧ fs.IsPlain loc ∧ fs' = fs.set loc (.file content) := by
  unfold write IsPlain
  cases hr : fs.resolve path with
  | error e => simp [bind, Except.bind]
  | ok loc =>
    simp only [bind, Except.bind, Except.ok.injEq, exists_eq_left']
    cases hl : fs.get? loc with
    | none => simp [eq_comm]
    | some e => cases e <;> simp [eq_comm]

theorem read_eq_ok_iff {fs : FileSystem} {path : String} {content : ByteArray} :
    fs.read path = .ok content ↔
      ∃ loc, fs.resolve path = .ok loc ∧ fs.get? loc = some (.file content) := by
  unfold read stat
  cases hr : fs.resolve path with
  | error e => simp [bind, Except.bind]
  | ok loc =>
    simp only [bind, Except.bind, Except.ok.injEq, exists_eq_left']
    cases hl : fs.get? loc with
    | none => simp
    | some e => cases e <;> simp

theorem fromUTF8?_eq_some_iff {content : ByteArray} {text : String} :
    String.fromUTF8? content = some text ↔ content = text.toUTF8 := by
  unfold String.fromUTF8?
  constructor
  · intro h
    split at h
    · cases h
      rfl
    · cases h
  · rintro rfl
    exact dif_pos text.isValidUTF8

theorem readText_eq_ok_iff {fs : FileSystem} {path text : String} :
    fs.readText path = .ok text ↔ fs.read path = .ok text.toUTF8 := by
  unfold readText
  cases fs.read path with
  | error e => simp [bind, Except.bind]
  | ok content =>
    simp only [bind, Except.bind, Except.ok.injEq]
    rw [← fromUTF8?_eq_some_iff]
    cases String.fromUTF8? content <;> simp

section Write

variable {fs fs' : FileSystem} {path text : String} (h : fs.writeText path text = .ok fs')
include h

theorem readText_of_writeText : fs'.readText path = .ok text := by
  obtain ⟨loc, hr, hloc, rfl⟩ := write_eq_ok_iff.1 h
  rw [readText_eq_ok_iff, read_eq_ok_iff]
  refine ⟨loc, locate_set hloc _ hr, ?_⟩
  rw [get?_set hloc.ne_nil, if_pos rfl]

theorem resolve_of_writeText {other : String} {loc : Location} (ho : fs.resolve other = .ok loc) :
    fs'.resolve other = .ok loc := by
  obtain ⟨_, _, hplain, rfl⟩ := write_eq_ok_iff.1 h
  exact locate_set hplain _ ho

theorem readText_of_writeText_other {other content : String} (ho : fs.readText other = .ok content)
    (hne : fs'.resolve path ≠ fs'.resolve other) : fs'.readText other = .ok content := by
  rw [readText_eq_ok_iff, read_eq_ok_iff] at ho ⊢
  obtain ⟨loc', hr', hc⟩ := ho
  obtain ⟨loc, hr, hloc, rfl⟩ := write_eq_ok_iff.1 h
  have hpath := locate_set hloc text.toUTF8 hr
  have hother := locate_set hloc text.toUTF8 hr'
  refine ⟨loc', hother, ?_⟩
  rw [get?_set hloc.ne_nil, if_neg, hc]
  rintro rfl
  exact hne (hpath.trans hother.symm)

end Write

end MessageKeys.FileSystem

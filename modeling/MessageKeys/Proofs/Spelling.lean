import MessageKeys.Proofs.PathSteps

namespace MessageKeys.Path

open FileSystem

def names (path : String) : List String := (segments path.toList).filter (!isVoid ·)

/-- What the components of a path begin with: a slash, a dot or nothing. -/
def sign (path : String) : List String :=
  if isAbsolute path then ["/"]
  else if (segments path.toList).head? = some "." then ["."] else []

theorem segments_slash (cs : List Char) : segments ('/' :: cs) = "" :: segments cs :=
  segments_append [] cs

theorem components_eq_sign_append (path : String) : components path = sign path ++ names path := by
  rw [components, sign, names]
  split
  next cs hcs =>
    have habs : isAbsolute path = true := by rw [isAbsolute, hcs]; rfl
    rw [habs, if_pos rfl, hcs, segments_slash, List.filter_cons_of_neg (by decide)]
    rfl
  next hnot =>
    rw [isAbsolute_eq_false hnot, if_neg Bool.false_ne_true]
    split
    next ss hss =>
      rw [hss, List.head?_cons, if_pos rfl, List.filter_cons_of_neg (by decide)]
      rfl
    next hdot =>
      rw [if_neg, List.nil_append]
      intro hhead
      obtain ⟨ss, hss⟩ := List.head?_eq_some_iff.1 hhead
      exact hdot ss hss

theorem names_subset_components (path : String) : names path ⊆ components path := by
  rw [components_eq_sign_append]
  exact List.subset_append_right _ _

theorem isAbsolute_of_notMem {s : String} (h : '/' ∉ s.toList) : isAbsolute s = false := by
  rw [isAbsolute, beq_eq_false_iff_ne]
  exact fun hhead => h (List.mem_of_mem_head? hhead)

theorem segments_of_notMem {name : String} (h : '/' ∉ name.toList) :
    segments name.toList = [name] := by
  rw [segments, splitSlashes_of_notMem h]
  simp

theorem isVoid_of_isName {name : String} (h : IsName name) : isVoid name = false := by
  simp [isVoid, h.2.1, h.2.2.1]

theorem components_segment {s : String} (hslash : '/' ∉ s.toList) (hvoid : isVoid s = false) :
    components s = [s] := by
  have hdot : s ≠ "." := by
    rintro rfl
    cases hvoid
  rw [components_eq_sign_append, sign, isAbsolute_of_notMem hslash, names,
    segments_of_notMem hslash, List.filter_singleton, hvoid]
  simp [hdot]

theorem names_segment {s : String} (hslash : '/' ∉ s.toList) :
    names s = if isVoid s then [] else [s] := by
  rw [names, segments_of_notMem hslash]
  cases hvoid : isVoid s <;> simp [hvoid]

theorem components_ne_nil {path : String} (h : path ≠ "") : components path ≠ [] := by
  rw [components_eq_sign_append]
  cases hcs : path.toList with
  | nil => exact absurd (String.toList_eq_nil_iff.1 hcs) h
  | cons c cs =>
    by_cases hc : c = '/'
    · have habs : isAbsolute path = true := by rw [isAbsolute, hcs, hc]; rfl
      simp [sign, habs]
    · -- The first segment is not empty, so it is a dot at the start or a name.
      obtain ⟨first, rest, hsegments, hfirst⟩ :
          ∃ first rest, segments path.toList = first :: rest ∧ first ≠ "" := by
        obtain ⟨s, ss, hss⟩ := List.exists_cons_of_ne_nil (splitSlashes_ne_nil cs)
        refine ⟨String.ofList (c :: s), ss.map String.ofList, ?_, by simp⟩
        rw [hcs, segments, splitSlashes.eq_def]
        simp [hss]
      by_cases hdot : first = "."
      · have habs : isAbsolute path = false := by simp [isAbsolute, hcs, hc]
        simp [sign, habs, hsegments, hdot]
      · have hvoid : isVoid first = false := by simp [isVoid, hfirst, hdot]
        simp [names, hsegments, hvoid]

section Join

variable {dir path : String}

theorem segments_join (hdir : dir ≠ "") (hpath : isAbsolute path = false) :
    ∃ ss, ss ≠ [] ∧ (segments dir.toList = ss ∨ segments dir.toList = ss ++ [""]) ∧
      segments (join dir path).toList = ss ++ segments path.toList := by
  rw [join, hpath, Bool.false_or, if_neg (by simpa using hdir)]
  split
  next h =>
    obtain ⟨cs, hcs⟩ := List.getLast?_eq_some_iff.1 (eq_of_beq h)
    refine ⟨segments cs, ?_, .inr ?_, ?_⟩
    · simpa [segments] using splitSlashes_ne_nil cs
    · rw [hcs, segments_append]
      rfl
    · rw [String.toList_append, hcs, List.append_assoc, List.singleton_append, segments_append]
  · refine ⟨segments dir.toList, segments_toList_ne_nil dir, .inl rfl, ?_⟩
    rw [← segments_append]
    simp

theorem components_join (hdir : dir ≠ "") (hpath : isAbsolute path = false) :
    components (join dir path) = components dir ++ names path := by
  obtain ⟨ss, hne, hss, hjoin⟩ := segments_join hdir hpath
  have hsign : sign (join dir path) = sign dir := by
    rw [sign, isAbsolute_join hpath, hjoin, List.head?_append_of_ne_nil _ hne, sign]
    rcases hss with hss | hss
    · rw [hss]
    · rw [hss, List.head?_append_of_ne_nil _ hne]
  have hnames : names (join dir path) = names dir ++ names path := by
    rw [names, hjoin, List.filter_append, names, names]
    rcases hss with hss | hss
    · rw [hss]
    · rw [hss, List.filter_append, List.filter_cons_of_neg (by decide), List.filter_nil,
        List.append_nil]
  rw [components_eq_sign_append, hsign, hnames, ← List.append_assoc, ← components_eq_sign_append]

theorem join_empty (path : String) : join "" path = path := by
  simp [join]

theorem components_join_segment {s : String} (hslash : '/' ∉ s.toList) (hvoid : isVoid s = false)
    (dir : String) : components (join dir s) = components dir ++ [s] := by
  by_cases hdir : dir = ""
  · subst hdir
    rw [join_empty, components_segment hslash hvoid]
    rfl
  · rw [components_join hdir (isAbsolute_of_notMem hslash), names_segment hslash, hvoid]
    rfl

theorem components_join_name {name : String} (hname : IsName name) (dir : String) :
    components (join dir name) = components dir ++ [name] :=
  components_join_segment hname.1 (isVoid_of_isName hname) dir

theorem components_foldl_join {ns : List String} (hns : ∀ n ∈ ns, IsName n) (dir : String) :
    components (ns.foldl join dir) = components dir ++ ns := by
  induction ns generalizing dir with
  | nil => simp
  | cons n ns ih =>
    rw [List.forall_mem_cons] at hns
    rw [List.foldl_cons, ih hns.2, components_join_name hns.1, List.append_assoc,
      List.singleton_append]

end Join

theorem isName_of_mem_names {path n : String} (h : n ∈ names path) (hn : n ≠ "..") :
    IsName n := by
  rw [names, List.mem_filter] at h
  have hvoid : n ≠ "" ∧ n ≠ "." := by simpa [isVoid] using h.2
  exact ⟨notMem_of_mem_segments h.1, hvoid.1, hvoid.2, hn⟩

theorem names_eq_filter_steps (path : String) :
    names path = (steps path).filter (· ≠ ".") := by
  rw [names, steps]
  induction segments path.toList with
  | nil => rfl
  | cons s ss ih =>
    rw [List.filter_cons, List.map_cons, List.filter_cons, ih]
    by_cases hempty : s = ""
    · subst hempty
      rfl
    · simp [isVoid, hempty]

theorem dots_of_components {dir : String} (h : (components dir).all (· == ".") = true) :
    isAbsolute dir = false ∧ ∀ step ∈ steps dir, step = "." := by
  rw [components_eq_sign_append, List.all_append, Bool.and_eq_true] at h
  obtain ⟨hsign, hnames⟩ := h
  constructor
  · rw [Bool.eq_false_iff]
    intro habs
    rw [sign, if_pos habs] at hsign
    cases hsign
  · intro step hstep
    by_contra hdot
    have hname : step ∈ names dir := by
      rw [names_eq_filter_steps, List.mem_filter]
      exact ⟨hstep, by simpa using hdot⟩
    exact hdot (eq_of_beq (List.all_eq_true.1 hnames step hname))

theorem foldl_place_filter (ss : List String) (loc : Location) :
    (ss.filter (· ≠ ".")).foldl place loc = ss.foldl place loc := by
  induction ss generalizing loc with
  | nil => rfl
  | cons s ss ih =>
    by_cases hs : s = "."
    · subst hs
      exact ih loc
    · rw [List.filter_cons_of_pos (by simpa using hs), List.foldl_cons, ih, List.foldl_cons]

theorem destination_eq_names (fs : FileSystem) (path : String) :
    fs.destination path = (names path).foldl place (fs.start path) := by
  rw [names_eq_filter_steps, foldl_place_filter, destination]

theorem foldl_place_of_isName {ns : List String} (hns : ∀ n ∈ ns, IsName n) (loc : Location) :
    ns.foldl place loc = loc ++ ns := by
  induction ns generalizing loc with
  | nil => simp
  | cons n ns ih =>
    rw [List.forall_mem_cons] at hns
    rw [List.foldl_cons, ih hns.2, hns.1.place_eq, List.append_assoc, List.singleton_append]

theorem foldl_place_steps {path : String} (h : ".." ∉ names path) (loc : Location) :
    (steps path).foldl place loc = loc ++ names path := by
  have hnames : ∀ n ∈ names path, IsName n := fun n hn =>
    isName_of_mem_names hn (ne_of_mem_of_not_mem hn h)
  rw [← foldl_place_filter, ← names_eq_filter_steps, foldl_place_of_isName hnames]

theorem destination_join_names (fs : FileSystem) (dir : String) {path : String}
    (hpath : isAbsolute path = false) (hdots : ".." ∉ names path) :
    fs.destination (join dir path) = fs.destination dir ++ names path := by
  rw [destination_join fs dir hpath, foldl_place_steps hdots]

/-- A text with a slash at its end, unless it is empty. -/
def leadOf (cs : List Char) : List Char :=
  if cs = [] then [] else if cs.getLast? = some '/' then cs else cs ++ ['/']

/-- What a path is put behind if it is seen from a directory. -/
def lead (dir : String) : String := String.ofList (leadOf dir.toList)

theorem join_eq_lead_append (dir : String) {path : String} (hpath : isAbsolute path = false) :
    join dir path = lead dir ++ path := by
  rw [join, lead, leadOf, hpath, Bool.false_or]
  by_cases hdir : dir = ""
  · simp [hdir]
  · by_cases hlast : dir.toList.getLast? = some '/'
    · simp [hdir, hlast]
    · simp [hdir, hlast, String.ofList_append]

theorem leadOf_append (cs : List Char) {ds : List Char} (hds : ds ≠ []) :
    leadOf (cs ++ ds) = cs ++ leadOf ds := by
  rw [leadOf, leadOf, if_neg (by simp [hds]), if_neg hds, List.getLast?_append_of_ne_nil _ hds]
  split
  · rfl
  · rw [List.append_assoc]

theorem lead_append (dir : String) {path : String} (hpath : path ≠ "") :
    lead (dir ++ path) = dir ++ lead path := by
  rw [lead, String.toList_append, leadOf_append _ (by simpa using hpath), String.ofList_append,
    String.ofList_toList, lead]

theorem join_join (dir : String) {path inner : String} (hne : path ≠ "")
    (hpath : isAbsolute path = false) (hinner : isAbsolute inner = false) :
    join (join dir path) inner = join dir (join path inner) := by
  have hjoin : isAbsolute (join path inner) = false := by rw [isAbsolute_join hinner, hpath]
  rw [join_eq_lead_append _ hinner, join_eq_lead_append dir hpath, join_eq_lead_append dir hjoin,
    join_eq_lead_append path hinner, lead_append _ hne, String.append_assoc]

theorem lead_of_last {dir : String} (hdir : dir ≠ "") (hlast : dir.toList.getLast? ≠ some '/') :
    lead dir = dir ++ "/" := by
  rw [lead, leadOf, if_neg (by simpa using hdir), if_neg hlast, String.ofList_append,
    String.ofList_toList]

theorem isAbsolute_joinSegments {ns : List String} (hns : ∀ n ∈ ns, IsName n) :
    isAbsolute (joinSegments ns) = false := by
  cases ns with
  | nil => rfl
  | cons n ns =>
    have hn := hns n List.mem_cons_self
    have hne : n.toList ≠ [] := by simpa using hn.2.1
    have hhead : (joinSegments (n :: ns)).toList.head? = n.toList.head? := by
      cases ns with
      | nil => simp [joinSegments]
      | cons m ms =>
        simp only [joinSegments, String.intercalate_cons_cons, String.toList_append,
          List.append_assoc]
        exact List.head?_append_of_ne_nil _ hne
    rw [isAbsolute, hhead]
    exact hn.isAbsolute_eq_false

theorem join_joinSegments {ns : List String} (hne : ns ≠ []) (hns : ∀ n ∈ ns, IsName n)
    (dir : String) : join dir (joinSegments ns) = ns.foldl join dir := by
  induction ns generalizing dir with
  | nil => exact absurd rfl hne
  | cons n ns ih =>
    rw [List.forall_mem_cons] at hns
    cases ns with
    | nil => simp [joinSegments]
    | cons m ms =>
      have hrest := isAbsolute_joinSegments hns.2
      have hsplit : joinSegments (n :: m :: ms) = join n (joinSegments (m :: ms)) := by
        rw [join_eq_lead_append n hrest,
          lead_of_last hns.1.2.1 fun hlast => hns.1.1 (List.mem_of_getLast? hlast), joinSegments,
          String.intercalate_cons_cons, joinSegments]
      rw [hsplit, ← join_join dir hns.1.2.1 hns.1.isAbsolute_eq_false hrest, ih (by simp) hns.2]
      rfl

theorem join_append_slash {dir path : String} (hdir : dir ≠ "")
    (hlast : dir.toList.getLast? ≠ some '/') (hpath : isAbsolute path = false) :
    join (dir ++ "/") path = join dir path := by
  have hslash : lead "/" = "/" := by decide
  rw [join_eq_lead_append _ hpath, join_eq_lead_append _ hpath, lead_append dir (by decide),
    hslash, lead_of_last hdir hlast]

theorem foldl_join_append_slash {dir : String} (hdir : dir ≠ "")
    (hlast : dir.toList.getLast? ≠ some '/') {ns : List String} (hne : ns ≠ [])
    (hns : ∀ n ∈ ns, IsName n) : ns.foldl join (dir ++ "/") = ns.foldl join dir := by
  obtain ⟨n, ns, rfl⟩ := List.exists_cons_of_ne_nil hne
  rw [List.forall_mem_cons] at hns
  rw [List.foldl_cons, join_append_slash hdir hlast hns.1.isAbsolute_eq_false, List.foldl_cons]

theorem foldl_join_congr {dir dir' : String} (h : lead dir = lead dir') {ns : List String}
    (hne : ns ≠ []) (hns : ∀ n ∈ ns, IsName n) : ns.foldl join dir = ns.foldl join dir' := by
  obtain ⟨n, ns, rfl⟩ := List.exists_cons_of_ne_nil hne
  have hn := (hns n List.mem_cons_self).isAbsolute_eq_false
  rw [List.foldl_cons, join_eq_lead_append dir hn, h, ← join_eq_lead_append dir' hn,
    List.foldl_cons]

theorem last_foldl_join {ns : List String} (hne : ns ≠ []) (hns : ∀ n ∈ ns, IsName n)
    (dir : String) :
    ns.foldl join dir ≠ "" ∧ (ns.foldl join dir).toList.getLast? ≠ some '/' := by
  obtain ⟨ms, n, rfl⟩ := (List.eq_nil_or_concat ns).resolve_left hne
  have hn : IsName n := hns n (by simp)
  have hchars : n.toList ≠ [] := by simpa using hn.2.1
  rw [List.concat_eq_append, List.foldl_append, List.foldl_cons, List.foldl_nil,
    join_eq_lead_append _ hn.isAbsolute_eq_false]
  refine ⟨by simp [hn.2.1], ?_⟩
  rw [String.toList_append, List.getLast?_append_of_ne_nil _ hchars]
  exact fun hlast => hn.1 (List.mem_of_getLast? hlast)

theorem isAbsolute_append {path : String} (hpath : path ≠ "") (more : String) :
    isAbsolute (path ++ more) = isAbsolute path := by
  rw [isAbsolute, String.toList_append, List.head?_append_of_ne_nil _ (by simpa using hpath),
    isAbsolute]

theorem join_append {path : String} (hpath : path ≠ "") (dir more : String) :
    join dir (path ++ more) = join dir path ++ more := by
  rw [join, isAbsolute_append hpath, join]
  split
  · rfl
  · split
    · rw [String.append_assoc]
    · simp only [String.append_assoc]

/-- Names with one slash between them, and perhaps one at the end. -/
def SpelledBy (ns : List String) (entry : String) : Prop :=
  entry = joinSegments ns ∨ entry = joinSegments ns ++ "/"

section SpelledBy

variable {ns : List String} (hne : ns ≠ []) (hns : ∀ n ∈ ns, IsName n)
include hne hns

theorem joinSegments_ne_empty : joinSegments ns ≠ "" := by
  have h := (last_foldl_join hne hns "").1
  rwa [← join_joinSegments hne hns, join_empty] at h

theorem SpelledBy.isAbsolute_eq_false {entry : String} (h : SpelledBy ns entry) :
    isAbsolute entry = false := by
  rcases h with rfl | rfl
  · exact isAbsolute_joinSegments hns
  · rw [isAbsolute_append (joinSegments_ne_empty hne hns), isAbsolute_joinSegments hns]

theorem SpelledBy.join_eq {entry : String} (h : SpelledBy ns entry) (dir : String) :
    join dir entry = ns.foldl join dir ∨ join dir entry = ns.foldl join dir ++ "/" := by
  rcases h with rfl | rfl
  · exact .inl (join_joinSegments hne hns dir)
  · right
    rw [join_append (joinSegments_ne_empty hne hns), join_joinSegments hne hns]

end SpelledBy

end MessageKeys.Path

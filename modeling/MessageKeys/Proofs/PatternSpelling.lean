import MessageKeys.Proofs.Matching
import MessageKeys.Proofs.Spelling

namespace MessageKeys.Glob

open FileSystem

/-- No character of a text means something in a pattern. -/
def isPlain (text : String) : Bool :=
  text.toList.all fun c => c != '*' && c != '?' && c != '['

theorem parseFrom_append_of_plain {cs rest : List Char} {p : Pattern} {size : Nat}
    (h : cs.all (fun c => c != '*' && c != '?' && c != '[') = true)
    (hrest : ∀ fuel position afterSlash, size ≤ fuel →
      parseFrom fuel position afterSlash rest = .ok p)
    {fuel : Nat} (hfuel : cs.length + size ≤ fuel) (position : Nat) (afterSlash : Bool) :
    parseFrom fuel position afterSlash (cs ++ rest) = .ok (cs.map .char ++ p) := by
  induction cs generalizing fuel position afterSlash with
  | nil => exact hrest fuel position afterSlash (by simpa using hfuel)
  | cons c cs ih =>
    rw [List.length_cons] at hfuel
    obtain ⟨fuel, rfl⟩ : ∃ n, fuel = n + 1 := ⟨fuel - 1, by omega⟩
    simp only [List.all_cons, Bool.and_eq_true, bne_iff_ne] at h
    obtain ⟨⟨⟨hstar, hquestion⟩, hbracket⟩, hcs⟩ := h
    rw [List.cons_append, parseFrom, ih (by simpa using hcs) (by omega)]
    · rfl
    · exact hquestion
    · exact hstar
    · exact hbracket

theorem parseFrom_of_plain {cs : List Char}
    (h : cs.all (fun c => c != '*' && c != '?' && c != '[') = true) {fuel : Nat}
    (hfuel : cs.length ≤ fuel) (position : Nat) (afterSlash : Bool) :
    parseFrom fuel position afterSlash cs = .ok (cs.map .char) := by
  have hnil (fuel position : Nat) (afterSlash : Bool) (_ : 0 ≤ fuel) :
      parseFrom fuel position afterSlash [] = .ok [] := by
    cases fuel <;> rfl
  have hparse := parseFrom_append_of_plain h hnil hfuel position afterSlash
  rwa [List.append_nil, List.append_nil] at hparse

theorem parse_of_isPlain {text : String} (h : isPlain text = true) :
    Pattern.parse text = .ok (text.toList.map .char) :=
  parseFrom_of_plain h (le_of_eq String.length_toList) 0 true

theorem literal?_map_char (cs : List Char) : Pattern.literal? (cs.map .char) = some cs := by
  induction cs with
  | nil => rfl
  | cons c cs ih => rw [List.map_cons, Pattern.literal?, ih]; rfl

theorem isRecursive_of_literal? {p : Pattern} {cs : List Char} (h : p.literal? = some cs) :
    p.isRecursive = false := by
  rw [Bool.eq_false_iff]
  intro hrec
  rw [literal?_of_isRecursive hrec] at h
  cases h

theorem eq_of_literal? {fuel position : Nat} {afterSlash : Bool} {cs ds : List Char} {p : Pattern}
    (hparse : parseFrom fuel position afterSlash cs = .ok p) (hfuel : cs.length ≤ fuel)
    (h : p.literal? = some ds) : ds = cs := by
  fun_induction parseFrom fuel position afterSlash cs generalizing p ds with
  | case1 _ _ cs =>
    cases hparse
    cases h
    exact (List.length_eq_zero_iff.1 (Nat.le_zero.1 hfuel)).symm
  | case2 =>
    cases hparse
    cases h
    rfl
  | case3 =>
    obtain ⟨q, -, rfl⟩ := map_eq_ok_iff.1 hparse
    cases h
  | case4 => cases hparse
  | case5 => cases hparse
  | case6 =>
    cases hparse
    cases h
  | case7 =>
    obtain ⟨q, -, rfl⟩ := map_eq_ok_iff.1 hparse
    cases h
  | case8 => cases hparse
  | case9 =>
    obtain ⟨q, -, rfl⟩ := map_eq_ok_iff.1 hparse
    cases h
  | case10 _ _ _ _ token rest hset =>
    obtain ⟨q, -, rfl⟩ := map_eq_ok_iff.1 hparse
    have htoken := (parseSet?_spec hset).2
    cases token with
    | char c => exact absurd rfl (htoken c)
    | _ => cases h
  | case11 => cases hparse
  | case12 fuel _ _ c cs _ _ _ ih =>
    obtain ⟨q, hq, rfl⟩ := map_eq_ok_iff.1 hparse
    obtain ⟨es, hes, rfl⟩ := Option.map_eq_some_iff.1 h
    rw [ih hq (Nat.le_of_succ_le_succ hfuel) hes]

theorem collapse_cons_of_not_recursive {p : Pattern} (h : p.isRecursive = false)
    (ps : List Pattern) : collapse (p :: ps) = p :: collapse ps := by
  cases ps with
  | nil => rfl
  | cons q ps => simp [collapse, h]

theorem reaches_of_literal {fs : FileSystem} {p : Pattern} {ps : List Pattern} {dir x : String}
    {cs : List Char} (hp : p.literal? = some cs) (h : Reaches fs (p :: ps) dir x) :
    Reaches fs ps (entryPath dir (String.ofList cs)) x := by
  have hrec := isRecursive_of_literal? hp
  generalize hqs : p :: ps = qs at h
  cases h with
  | done => cases hqs
  | literal hq _ hrest =>
    cases hqs
    cases hp.symm.trans hq
    exact hrest
  | name hq =>
    cases hqs
    cases hp.symm.trans hq
  | special hq =>
    cases hqs
    cases hp.symm.trans hq
  | directories hq =>
    cases hqs
    cases hrec.symm.trans hq
  | deep hq =>
    cases hqs
    cases hrec.symm.trans hq

/-- How a pattern spells the base that it is seen from. -/
def patternBase (base : String) : String := (pieceTexts base).foldl entryPath (scopeOf base)

theorem reaches_after_plain {fs : FileSystem} {texts rest : List String} {ps : List Pattern}
    {dir x : String} (hplain : ∀ text ∈ texts, isPlain text = true)
    (hps : List.Forall₂ (fun piece p => Pattern.parse piece = .ok p) (texts ++ rest) ps)
    (h : Reaches fs (collapse ps) dir x) :
    ∃ qs, List.Forall₂ (fun piece p => Pattern.parse piece = .ok p) rest qs ∧
      Reaches fs (collapse qs) (texts.foldl entryPath dir) x := by
  induction texts generalizing ps dir with
  | nil => exact ⟨ps, hps, h⟩
  | cons text texts ih =>
    rw [List.forall_mem_cons] at hplain
    obtain ⟨p, qs, hp, hqs, rfl⟩ := List.forall₂_cons_left_iff.1 hps
    rw [parse_of_isPlain hplain.1] at hp
    cases hp
    have hliteral := literal?_map_char text.toList
    rw [collapse_cons_of_not_recursive (isRecursive_of_literal? hliteral)] at h
    have hrest := reaches_of_literal hliteral h
    rw [String.ofList_toList] at hrest
    exact ih hplain.2 hqs hrest

theorem mem_of_mem_splitSlashes {cs s : List Char} (h : s ∈ Path.splitSlashes cs) : s ⊆ cs := by
  induction cs generalizing s with
  | nil =>
    rw [List.mem_singleton.1 h]
    exact List.nil_subset _
  | cons c cs ih =>
    obtain ⟨t, ts, hts⟩ := List.exists_cons_of_ne_nil (splitSlashes_ne_nil cs)
    rw [hts] at ih
    by_cases hc : c = '/'
    · subst hc
      rw [Path.splitSlashes, hts] at h
      rcases List.mem_cons.1 h with rfl | h
      · exact List.nil_subset _
      · exact List.subset_cons_of_subset _ (ih h)
    · simp only [Path.splitSlashes, hts] at h
      rcases List.mem_cons.1 h with rfl | h
      · exact List.cons_subset_cons c (ih List.mem_cons_self)
      · exact List.subset_cons_of_subset _ (ih (List.mem_cons_of_mem _ h))

theorem isPlain_of_mem_pieceTexts {base piece : String} (h : isPlain base = true)
    (hpiece : piece ∈ pieceTexts base) : isPlain piece = true := by
  rw [isPlain, List.all_eq_true] at h ⊢
  obtain ⟨s, hs, rfl⟩ := List.mem_map.1 (mem_segments_of_mem_pieces hpiece)
  intro c hc
  rw [String.toList_ofList] at hc
  have hmem := mem_of_mem_splitSlashes hs hc
  split at hmem
  · exact h c (List.mem_of_mem_tail hmem)
  · exact h c hmem

theorem pieces_append (cs ds : List Char) :
    pieces (cs ++ '/' :: ds) = Path.segments cs ++ pieces ds := by
  have hne : Path.segments ds ≠ [] := by
    rw [Path.segments, Ne, List.map_eq_nil_iff]
    exact splitSlashes_ne_nil ds
  rw [pieces, pieces, Path.segments_append, List.getLast?_append_of_ne_nil _ hne]
  split
  · rw [List.dropLast_append_of_ne_nil hne]
  · rfl

theorem getLast?_splitSlashes {cs : List Char} (hne : cs ≠ []) (hlast : cs.getLast? ≠ some '/') :
    (Path.splitSlashes cs).getLast? ≠ some [] := by
  induction cs with
  | nil => exact absurd rfl hne
  | cons c cs ih =>
    obtain ⟨s, ss, hss⟩ := List.exists_cons_of_ne_nil (splitSlashes_ne_nil cs)
    by_cases hcs : cs = []
    · subst hcs
      have hc : c ≠ '/' := by simpa using hlast
      simp [Path.splitSlashes]
    · have hrest := ih hcs (by rwa [List.getLast?_cons_of_ne_nil hcs] at hlast)
      rw [hss] at hrest
      by_cases hc : c = '/'
      · subst hc
        rwa [Path.splitSlashes, hss, List.getLast?_cons_cons]
      · simp only [Path.splitSlashes, hss]
        cases ss with
        | nil => simp
        | cons t ts =>
          rw [List.getLast?_cons_cons] at hrest ⊢
          exact hrest

theorem pieces_of_last {cs : List Char} (hne : cs ≠ []) (hlast : cs.getLast? ≠ some '/') :
    pieces cs = Path.segments cs := by
  rw [pieces, if_neg]
  rw [beq_iff_eq, Path.segments, List.getLast?_map]
  intro h
  obtain ⟨s, hs, hempty⟩ := Option.map_eq_some_iff.1 h
  obtain rfl : s = [] := by simpa using hempty
  exact getLast?_splitSlashes hne hlast hs

theorem pieces_leadOf_append (cs ds : List Char) :
    pieces (Path.leadOf cs ++ ds) = pieces cs ++ pieces ds := by
  rw [Path.leadOf]
  by_cases hcs : cs = []
  · subst hcs
    rfl
  rw [if_neg hcs]
  by_cases hlast : cs.getLast? = some '/'
  · obtain ⟨es, rfl⟩ := List.getLast?_eq_some_iff.1 hlast
    have hnil : pieces [] = [] := rfl
    rw [if_pos hlast, List.append_assoc, List.singleton_append, pieces_append, pieces_append, hnil,
      List.append_nil]
  · rw [if_neg hlast, List.append_assoc, List.singleton_append, pieces_append,
      pieces_of_last hcs hlast]

theorem pieces_of_spelledBy {ns : List String} (hne : ns ≠ []) (hns : ∀ n ∈ ns, IsName n)
    {entry : String} (h : Path.SpelledBy ns entry) : pieces entry.toList = ns := by
  have hsegments := Path.segments_joinSegments hne fun n hn => (hns n hn).1
  rcases h with rfl | rfl
  · rw [pieces, hsegments, if_neg]
    rw [beq_iff_eq]
    exact fun hlast => (hns "" (List.mem_of_getLast? hlast)).2.1 rfl
  · have hslash : (Path.joinSegments ns ++ "/").toList =
        (Path.joinSegments ns).toList ++ '/' :: [] := by simp
    have hnil : pieces [] = [] := rfl
    rw [hslash, pieces_append, hsegments, hnil, List.append_nil]

theorem tail_leadOf (cs : List Char) : (Path.leadOf ('/' :: cs)).tail = Path.leadOf cs := by
  by_cases hcs : cs = []
  · subst hcs
    rfl
  · rw [← List.singleton_append, Path.leadOf_append ['/'] hcs]
    rfl

/-- A pattern seen from a base has the pieces of the base before its own. -/
theorem pieceTexts_join (base : String) {entry : String} (hentry : Path.isAbsolute entry = false) :
    scopeOf (Path.join base entry) = scopeOf base ∧
      pieceTexts (Path.join base entry) = pieceTexts base ++ pieces entry.toList := by
  by_cases hbase : base = ""
  · subst hbase
    rw [Path.join_empty, scopeOf, scopeOf, pieceTexts, pieceTexts, hentry]
    exact ⟨rfl, rfl⟩
  have habs : Path.isAbsolute (Path.join base entry) = Path.isAbsolute base :=
    isAbsolute_join hentry
  have htext : (Path.join base entry).toList = Path.leadOf base.toList ++ entry.toList := by
    rw [Path.join_eq_lead_append base hentry, String.toList_append, Path.lead,
      String.toList_ofList]
  refine ⟨by rw [scopeOf, habs, scopeOf], ?_⟩
  rw [pieceTexts, habs, htext, pieceTexts]
  split
  next h =>
    obtain ⟨cs, hcs⟩ := List.head?_eq_some_iff.1 (eq_of_beq h)
    have hne : Path.leadOf ('/' :: cs) ≠ [] := by
      rw [Path.leadOf, if_neg (List.cons_ne_nil _ _)]
      split <;> simp
    rw [hcs, List.tail_append_of_ne_nil hne, tail_leadOf, pieces_leadOf_append, List.tail_cons]
  · exact pieces_leadOf_append _ _

theorem reaches_of_standsFor {fs : FileSystem} {base entry x : String}
    (hbase : isPlain base = true) (hentry : Path.isAbsolute entry = false)
    (h : StandsFor fs (Path.join base entry) x) :
    ∃ ps, List.Forall₂ (fun piece p => Pattern.parse piece = .ok p) (pieces entry.toList) ps ∧
      Reaches fs (collapse ps) (patternBase base) x := by
  obtain ⟨hscope, hpieces⟩ := pieceTexts_join base hentry
  obtain ⟨-, ps, -, hps, hreaches⟩ := h
  rw [hpieces] at hps
  rw [hscope] at hreaches
  exact reaches_after_plain (fun piece => isPlain_of_mem_pieceTexts hbase) hps hreaches

/-- What the path of an entry is put behind: nothing in the working directory. -/
def anchor (dir : String) : String := if Path.components dir = ["."] then "" else dir

theorem entryPath_eq_join (dir name : String) :
    entryPath dir name = Path.join (anchor dir) name := by
  rw [entryPath, anchor]
  by_cases hdir : Path.components dir = ["."]
  · simp [hdir, Path.join_empty]
  · simp [hdir]

theorem components_anchor (dir : String) :
    Path.components (anchor dir) =
      if Path.components dir = ["."] then [] else Path.components dir := by
  rw [anchor]
  split
  · rfl
  · rfl

theorem components_anchor_ne (dir : String) : Path.components (anchor dir) ≠ ["."] := by
  rw [components_anchor]
  split
  · simp
  next h => exact h

theorem anchor_anchor (dir : String) : anchor (anchor dir) = anchor dir :=
  if_neg (components_anchor_ne dir)

theorem anchor_join_segment {s : String} (hslash : '/' ∉ s.toList) (hvoid : Path.isVoid s = false)
    (dir : String) : anchor (Path.join dir s) = Path.join dir s := by
  rw [anchor, if_neg]
  rw [Path.components_join_segment hslash hvoid]
  intro h
  have hlast := congrArg List.getLast? h
  rw [List.getLast?_concat] at hlast
  cases Option.some.inj hlast
  cases hvoid

theorem anchor_join_name {name : String} (hname : IsName name) (dir : String) :
    anchor (Path.join dir name) = Path.join dir name :=
  anchor_join_segment hname.1 (Path.isVoid_of_isName hname) dir

theorem components_anchor_join {dir step : String} (hstep : Path.isAbsolute step = false)
    (hnames : Path.names step = []) :
    Path.components (anchor (Path.join dir step)) = Path.components (anchor dir) := by
  by_cases hdir : dir = ""
  · subst hdir
    rw [Path.join_empty, components_anchor, Path.components_eq_sign_append, hnames, List.append_nil,
      Path.sign, hstep, if_neg Bool.false_ne_true]
    split <;> rfl
  · rw [components_anchor, Path.components_join hdir hstep, hnames, List.append_nil,
      components_anchor]

theorem components_anchor_entryPath {s : String} (hslash : '/' ∉ s.toList) (dir : String) :
    Path.components (anchor (entryPath dir s)) = Path.components (anchor dir) ++ Path.names s := by
  rw [entryPath_eq_join, Path.names_segment hslash]
  cases hvoid : Path.isVoid s with
  | true =>
    have hnames : Path.names s = [] := by rw [Path.names_segment hslash, if_pos hvoid]
    rw [components_anchor_join (Path.isAbsolute_of_notMem hslash) hnames, anchor_anchor]
    simp
  | false =>
    rw [anchor_join_segment hslash hvoid, Path.components_join_segment hslash hvoid]
    simp

/-- A path goes on from a directory by these names, in what it denotes and in its components. -/
structure GoesOn (fs : FileSystem) (dir path : String) (names : List String) : Prop where
  isName : ∀ name ∈ names, IsName name
  destination : fs.destination path = fs.destination dir ++ names
  components : Path.components (anchor path) = Path.components (anchor dir) ++ names

section GoesOn

variable {fs : FileSystem} {dir path x : String}

theorem GoesOn.refl (fs : FileSystem) (dir : String) : GoesOn fs dir dir [] :=
  ⟨by simp, by simp, by simp⟩

theorem GoesOn.trans {names more : List String} (h : GoesOn fs dir path names)
    (h' : GoesOn fs path x more) : GoesOn fs dir x (names ++ more) where
  isName := List.forall_mem_append.2 ⟨h.isName, h'.isName⟩
  destination := by rw [h'.destination, h.destination, List.append_assoc]
  components := by rw [h'.components, h.components, List.append_assoc]

theorem goesOn_name {name : String} (hname : IsName name) :
    GoesOn fs dir (entryPath dir name) [name] where
  isName := by simpa using hname
  destination := destination_entryPath_name hname
  components := by
    rw [entryPath_eq_join, anchor_join_name hname, Path.components_join_name hname]

theorem goesOn_names {names : List String} (hnames : ∀ name ∈ names, IsName name) :
    GoesOn fs dir (names.foldl entryPath dir) names := by
  induction names generalizing dir with
  | nil => exact .refl fs dir
  | cons name names ih =>
    rw [List.forall_mem_cons] at hnames
    exact (goesOn_name hnames.1).trans (ih hnames.2)

theorem goesOn_void {step : String} (hstep : Path.isAbsolute step = false)
    (hnames : Path.names step = []) :
    GoesOn fs dir (Path.join dir step) [] ∧ GoesOn fs dir (entryPath dir step) [] := by
  have hfold : (steps step).foldl place (fs.destination dir) = fs.destination dir := by
    rw [Path.foldl_place_steps (by simp [hnames]), hnames, List.append_nil]
  refine ⟨⟨by simp, ?_, ?_⟩, by simp, ?_, ?_⟩
  · rw [destination_join fs dir hstep, hfold, List.append_nil]
  · rw [components_anchor_join hstep hnames, List.append_nil]
  · rw [destination_entryPath hstep, hfold, List.append_nil]
  · rw [entryPath_eq_join, components_anchor_join hstep hnames, anchor_anchor, List.append_nil]

theorem goesOn_literal {p : Pattern} {cs : List Char} (hpiece : IsPiece p)
    (hp : p.literal? = some cs) (hdots : String.ofList cs ≠ "..") :
    ∃ names, GoesOn fs dir (entryPath dir (String.ofList cs)) names := by
  have hrel := isAbsolute_of_literal? hpiece hp
  have hslash : '/' ∉ (String.ofList cs).toList := by
    rw [String.toList_ofList]
    exact fun h => hpiece (char_mem_of_literal? hp '/' h)
  by_cases hvoid : Path.isVoid (String.ofList cs) = true
  · have hnames : Path.names (String.ofList cs) = [] := by
      rw [Path.names_segment hslash, if_pos hvoid]
    exact ⟨[], (goesOn_void hrel hnames).2⟩
  · simp only [Path.isVoid, Bool.or_eq_true, beq_iff_eq, not_or] at hvoid
    exact ⟨_, goesOn_name ⟨hslash, hvoid.1, hvoid.2, hdots⟩⟩

end GoesOn

theorem eq_map_char_of_literal? {p : Pattern} {cs : List Char} (h : p.literal? = some cs) :
    p = cs.map .char := by
  induction p generalizing cs with
  | nil =>
    cases h
    rfl
  | cons t ts ih =>
    cases t with
    | char c =>
      obtain ⟨ds, hds, rfl⟩ := Option.map_eq_some_iff.1 h
      rw [List.map_cons, ← ih hds]
    | _ => cases h

theorem mem_specialNames_of_literal? {p : Pattern} {name : String} (hname : isSpecial name = true)
    (h : p.literal? = some name.toList) : name ∈ specialNames p := by
  rw [eq_map_char_of_literal? h]
  simp only [isSpecial, Bool.or_eq_true, beq_iff_eq] at hname
  rcases hname with rfl | rfl <;> decide

theorem eq_dot_of_mem_specialNames {p : Pattern} {name : String} (h : name ∈ specialNames p)
    (hdots : name ≠ "..") : name = "." := by
  rw [specialNames.eq_def] at h
  split at h
  · exact (List.mem_pair.1 (List.mem_of_mem_filter h)).resolve_right hdots
  · cases h

/-- The dot entries that the pieces of a pattern stand for. -/
def dotEntries (text : String) : List String :=
  (pieceTexts text).flatMap fun piece => ((Pattern.parse piece).toOption.map specialNames).getD []

theorem specialNames_subset {text : String} (hrel : Path.isAbsolute text = false)
    {ps : List Pattern}
    (hps : List.Forall₂ (fun piece p => Pattern.parse piece = .ok p) (pieces text.toList) ps)
    {p : Pattern} (hp : p ∈ collapse ps) : specialNames p ⊆ dotEntries text := by
  obtain ⟨piece, hpiece, hparse⟩ := exists_of_mem_mapM (mapM_eq_ok_iff.2 hps) (collapse_subset _ hp)
  intro name hname
  rw [dotEntries, pieceTexts, hrel]
  refine List.mem_flatMap.2 ⟨piece, hpiece, ?_⟩
  rw [hparse]
  exact hname

theorem names_of_deep {fs : FileSystem} (htree : fs.IsTree) {dir name path : String}
    (h : Deep fs dir name path) :
    ∃ names, names ≠ [] ∧ (∀ n ∈ names, IsName n) ∧ path = names.foldl entryPath dir := by
  obtain ⟨-, names, ⟨e, he⟩, rfl⟩ := h
  refine ⟨names ++ [name], by simp, fun n hn => htree.isName _ he n ?_, rfl⟩
  rw [List.append_assoc]
  exact List.mem_append_right _ hn

section Reaches

variable {fs : FileSystem} (hfs : fs.IsLinkFreeTree) {ps : List Pattern}
  {dir x : String} (h : Reaches fs ps dir x)
include hfs h

/-- The pieces of a pattern go down, if none of them stands for two dots. -/
theorem Reaches.goesOn (hps : ∀ p ∈ ps, IsPiece p ∧ ".." ∉ specialNames p) :
    ∃ names, GoesOn fs dir x names := by
  induction h with
  | done path => exact ⟨[], .refl fs path⟩
  | @literal p _ dir _ cs hp _ _ ih =>
    rw [List.forall_mem_cons] at hps
    have hdots : String.ofList cs ≠ ".." := by
      intro heq
      refine hps.1.2 (mem_specialNames_of_literal? rfl ?_)
      rw [← heq, String.toList_ofList, hp]
    obtain ⟨names, hstep⟩ := goesOn_literal hps.1.1 hp hdots
    obtain ⟨more, hrest⟩ := ih hps.2
    exact ⟨_, hstep.trans hrest⟩
  | name _ _ hname _ _ ih =>
    rw [List.forall_mem_cons] at hps
    obtain ⟨more, hrest⟩ := ih hps.2
    exact ⟨_, (goesOn_name (isName_of_mem_namesIn hfs hname)).trans hrest⟩
  | special _ _ _ hname _ ih =>
    rw [List.forall_mem_cons] at hps
    obtain ⟨more, hrest⟩ := ih hps.2
    obtain rfl := eq_dot_of_mem_specialNames hname fun h => hps.1.2 (h ▸ hname)
    exact ⟨_, (goesOn_void rfl rfl).1.trans hrest⟩
  | directories _ hdeep _ =>
    obtain ⟨names, -, hnames, rfl⟩ := names_of_deep hfs.toIsTree hdeep
    exact ⟨names, goesOn_names hnames⟩
  | deep _ hdeep _ _ ih =>
    rw [List.forall_mem_cons, List.forall_mem_cons] at hps
    obtain ⟨names, -, hnames, rfl⟩ := names_of_deep hfs.toIsTree hdeep
    obtain ⟨more, hrest⟩ := ih hps.2.2
    exact ⟨_, (goesOn_names hnames).trans hrest⟩

theorem Reaches.eq_foldl (hps : ∀ p ∈ ps, specialNames p = [] ∧
    ∀ cs, p.literal? = some cs → IsName (String.ofList cs)) :
    ∃ names, (ps ≠ [] → names ≠ []) ∧ (∀ n ∈ names, IsName n) ∧ x = names.foldl entryPath dir := by
  induction h with
  | done path => exact ⟨[], fun h => absurd rfl h, by simp, rfl⟩
  | literal hp _ _ ih =>
    rw [List.forall_mem_cons] at hps
    obtain ⟨names, -, hnames, hx⟩ := ih hps.2
    exact ⟨_ :: names, by simp, List.forall_mem_cons.2 ⟨hps.1.2 _ hp, hnames⟩, hx⟩
  | name _ _ hname _ _ ih =>
    rw [List.forall_mem_cons] at hps
    obtain ⟨names, -, hnames, hx⟩ := ih hps.2
    have hfirst := isName_of_mem_namesIn hfs hname
    exact ⟨_ :: names, by simp, List.forall_mem_cons.2 ⟨hfirst, hnames⟩, hx⟩
  | special _ _ _ hname =>
    rw [(hps _ List.mem_cons_self).1] at hname
    cases hname
  | directories _ hdeep _ =>
    obtain ⟨names, hne, hnames, rfl⟩ := names_of_deep hfs.toIsTree hdeep
    exact ⟨names, fun _ => hne, hnames, rfl⟩
  | deep _ hdeep _ _ ih =>
    rw [List.forall_mem_cons, List.forall_mem_cons] at hps
    obtain ⟨names, hne, hnames, rfl⟩ := names_of_deep hfs.toIsTree hdeep
    obtain ⟨more, -, hmore, hx⟩ := ih hps.2.2
    refine ⟨names ++ more, fun _ => by simp [hne], List.forall_mem_append.2 ⟨hnames, hmore⟩, ?_⟩
    rw [List.foldl_append, hx]

end Reaches

theorem notMem_of_mem_pieceTexts {text piece : String} (h : piece ∈ pieceTexts text) :
    '/' ∉ piece.toList :=
  Path.notMem_of_mem_segments (mem_segments_of_mem_pieces h)

/-- The pieces of a text are its segments, but for an empty one after a slash at the end. -/
theorem segments_eq_pieces (cs : List Char) :
    Path.segments cs = pieces cs ∨ Path.segments cs = pieces cs ++ [""] := by
  rw [pieces]
  split
  next h =>
    obtain ⟨ss, hss⟩ := List.getLast?_eq_some_iff.1 (eq_of_beq h)
    right
    rw [hss, List.dropLast_concat]
  · exact .inl rfl

theorem destination_foldl_entryPath (fs : FileSystem) {texts : List String}
    (htexts : ∀ text ∈ texts, '/' ∉ text.toList) (dir : String) :
    fs.destination (texts.foldl entryPath dir) =
      (texts.map fun s => if s.isEmpty then "." else s).foldl place (fs.destination dir) := by
  induction texts generalizing dir with
  | nil => rfl
  | cons text texts ih =>
    rw [List.forall_mem_cons] at htexts
    rw [List.foldl_cons, ih htexts.2, destination_entryPath (Path.isAbsolute_of_notMem htexts.1),
      steps, Path.segments_of_notMem htexts.1]
    rfl

theorem foldl_place_pieces (cs : List Char) (loc : Location) :
    ((pieces cs).map fun s => if s.isEmpty then "." else s).foldl place loc =
      ((Path.segments cs).map fun s => if s.isEmpty then "." else s).foldl place loc := by
  rcases segments_eq_pieces cs with h | h
  · rw [h]
  · rw [h, List.map_append, List.foldl_append]
    rfl

theorem destination_patternBase (fs : FileSystem) (base : String) :
    fs.destination (patternBase base) = fs.destination base := by
  rw [patternBase, destination_foldl_entryPath fs fun _ => notMem_of_mem_pieceTexts, pieceTexts,
    foldl_place_pieces, destination, destination, start, start, scopeOf, steps]
  by_cases habs : Path.isAbsolute base = true
  · obtain ⟨cs, hcs⟩ := List.head?_eq_some_iff.1 (eq_of_beq habs)
    rw [if_pos habs, if_pos habs, if_pos habs, steps, hcs, Path.segments_slash]
    rfl
  · rw [if_neg habs, if_neg habs, if_neg habs]
    rfl

theorem destination_anchor (fs : FileSystem) (dir : String) :
    fs.destination (anchor dir) = fs.destination dir := by
  rw [anchor]
  split
  next h =>
    obtain ⟨hrel, hdots⟩ := dots_of_components_eq h
    rw [destination_empty, destination, foldl_place_dots hdots, start, hrel]
    rfl
  · rfl

theorem components_foldl_entryPath {texts : List String}
    (htexts : ∀ text ∈ texts, '/' ∉ text.toList) (dir : String) :
    Path.components (anchor (texts.foldl entryPath dir)) =
      Path.components (anchor dir) ++ texts.filter (!Path.isVoid ·) := by
  induction texts generalizing dir with
  | nil => simp
  | cons text texts ih =>
    rw [List.forall_mem_cons] at htexts
    rw [List.foldl_cons, ih htexts.2, components_anchor_entryPath htexts.1,
      Path.names_segment htexts.1, List.append_assoc]
    cases hvoid : Path.isVoid text <;> simp [hvoid]

theorem filter_pieces (cs : List Char) :
    (pieces cs).filter (!Path.isVoid ·) = (Path.segments cs).filter (!Path.isVoid ·) := by
  rcases segments_eq_pieces cs with h | h
  · rw [h]
  · rw [h, List.filter_append, List.filter_cons_of_neg (by decide), List.filter_nil,
      List.append_nil]

/-- A pattern keeps the components of its base, except for a dot at the start. -/
theorem components_patternBase {base : String} (h : (Path.components base).head? ≠ some ".") :
    Path.components (anchor (patternBase base)) = Path.components base := by
  rw [Path.components_eq_sign_append base] at h ⊢
  rw [patternBase, components_foldl_entryPath fun _ => notMem_of_mem_pieceTexts, pieceTexts,
    filter_pieces, scopeOf, Path.names]
  by_cases habs : Path.isAbsolute base = true
  · obtain ⟨cs, hcs⟩ := List.head?_eq_some_iff.1 (eq_of_beq habs)
    rw [Path.sign, if_pos habs, if_pos habs, if_pos habs, hcs,
      Path.segments_slash, List.filter_cons_of_neg (by decide)]
    rfl
  · rw [Path.sign, if_neg habs] at h ⊢
    rw [if_neg habs, if_neg habs, if_neg]
    · rfl
    · intro hdot
      rw [if_pos hdot] at h
      exact h rfl

theorem foldl_entryPath_eq {names : List String} (hne : names ≠ []) (hnames : ∀ n ∈ names, IsName n)
    (dir : String) : names.foldl entryPath dir = names.foldl Path.join (anchor dir) := by
  induction names generalizing dir with
  | nil => exact absurd rfl hne
  | cons n ns ih =>
    rw [List.forall_mem_cons] at hnames
    rw [List.foldl_cons, List.foldl_cons, entryPath_eq_join]
    by_cases hns : ns = []
    · rw [hns]
      rfl
    · rw [ih hns hnames.2, anchor_join_name hnames.1]

end MessageKeys.Glob

import MessageKeys.Proofs.Scanning
import MessageKeys.Proofs.Spelling

namespace MessageKeys

open FileSystem

namespace Glob

theorem map_eq_ok_iff {ε α β : Type} {x : Except ε α} {f : α → β} {b : β} :
    x.map f = .ok b ↔ ∃ a, x = .ok a ∧ f a = b := by
  cases x <;> simp [Except.map]

theorem splitSet?_subset {cs set rest : List Char} (h : splitSet? cs = some (set, rest)) :
    rest ⊆ cs := by
  unfold splitSet? at h
  split at h
  · cases h
  next c cs =>
    split at h
    next d rest' hdrop =>
      cases h
      intro x hx
      refine List.mem_cons_of_mem _ ((List.dropWhile_suffix (· != ']')).subset ?_)
      rw [hdrop]
      exact List.mem_cons_of_mem _ hx
    · cases h

theorem parseSet?_spec {cs rest : List Char} {token : Token} (h : parseSet? cs = some (token, rest)) :
    rest ⊆ cs ∧ ∀ c, token ≠ .char c := by
  unfold parseSet? at h
  split at h
  next ds =>
    obtain ⟨⟨set, rest'⟩, hsplit, heq⟩ := Option.map_eq_some_iff.1 h
    cases heq
    exact ⟨fun x hx => List.mem_cons_of_mem _ (splitSet?_subset hsplit hx), by simp⟩
  · obtain ⟨⟨set, rest'⟩, hsplit, heq⟩ := Option.map_eq_some_iff.1 h
    cases heq
    exact ⟨splitSet?_subset hsplit, by simp⟩

theorem mem_of_map_cons {t : Token} {r : Except PatternError Pattern} {p : Pattern}
    (h : r.map (t :: ·) = .ok p) {c : Char} (hc : Token.char c ∈ p) :
    t = .char c ∨ ∃ q, r = .ok q ∧ Token.char c ∈ q := by
  obtain ⟨q, hq, rfl⟩ := map_eq_ok_iff.1 h
  exact (List.mem_cons.1 hc).imp Eq.symm fun hmem => ⟨q, hq, hmem⟩

theorem mem_of_parseFrom {fuel position : Nat} {afterSlash : Bool} {cs : List Char} {p : Pattern}
    (h : parseFrom fuel position afterSlash cs = .ok p) {c : Char} (hc : Token.char c ∈ p) :
    c ∈ cs := by
  fun_induction parseFrom fuel position afterSlash cs generalizing p with
  | case1 => cases h; cases hc
  | case2 => cases h; cases hc
  | case3 fuel i _ cs ih =>
    obtain heq | ⟨q, hq, hmem⟩ := mem_of_map_cons h hc
    · cases heq
    · exact List.mem_cons_of_mem _ (ih hq hmem)
  | case4 => cases h
  | case5 => cases h
  | case6 =>
    cases h
    simp at hc
  | case7 fuel i afterSlash _ rest _ ih =>
    obtain heq | ⟨q, hq, hmem⟩ := mem_of_map_cons h hc
    · cases heq
    · exact List.mem_append_right ['*', '*', '/'] (ih hq hmem)
  | case8 => cases h
  | case9 fuel i afterSlash cs _ _ ih =>
    obtain heq | ⟨q, hq, hmem⟩ := mem_of_map_cons h hc
    · cases heq
    · exact List.mem_cons_of_mem _ (ih hq hmem)
  | case10 fuel i _ cs token rest hset ih =>
    obtain ⟨hrest, htoken⟩ := parseSet?_spec hset
    obtain heq | ⟨q, hq, hmem⟩ := mem_of_map_cons h hc
    · exact absurd heq (htoken c)
    · exact List.mem_cons_of_mem _ (hrest (ih hq hmem))
  | case11 => cases h
  | case12 fuel i _ d cs _ _ _ ih =>
    obtain heq | ⟨q, hq, hmem⟩ := mem_of_map_cons h hc
    · cases heq
      exact List.mem_cons_self
    · exact List.mem_cons_of_mem _ (ih hq hmem)

theorem char_mem_of_literal? {p : Pattern} {cs : List Char} (h : p.literal? = some cs) :
    ∀ c ∈ cs, Token.char c ∈ p := by
  induction p generalizing cs with
  | nil =>
    cases h
    simp
  | cons t ts ih =>
    cases t with
    | char d =>
      obtain ⟨ds, hds, rfl⟩ := Option.map_eq_some_iff.1 h
      intro c hc
      rcases List.mem_cons.1 hc with rfl | hc
      · exact List.mem_cons_self
      · exact List.mem_cons_of_mem _ (ih hds c hc)
    | _ => cases h

/-- A piece of a pattern: no slash is in it. -/
def IsPiece (p : Pattern) : Prop := Token.char '/' ∉ p

theorem isAbsolute_of_literal? {p : Pattern} {cs : List Char} (hp : IsPiece p)
    (h : p.literal? = some cs) : Path.isAbsolute (String.ofList cs) = false := by
  rw [Path.isAbsolute, beq_eq_false_iff_ne, String.toList_ofList]
  intro hhead
  exact hp (char_mem_of_literal? h '/' (List.mem_of_mem_head? hhead))

theorem dots_of_components_eq {dir : String} (h : Path.components dir = ["."]) :
    Path.isAbsolute dir = false ∧ ∀ s ∈ steps dir, s = "." := by
  apply Path.dots_of_components
  rw [h]
  rfl

section EntryPath

variable {fs : FileSystem} {dir name : String}

theorem destination_entryPath (hname : Path.isAbsolute name = false) :
    fs.destination (entryPath dir name) = (steps name).foldl place (fs.destination dir) := by
  rw [entryPath]
  split
  next hdot =>
    obtain ⟨hrel, hdots⟩ := dots_of_components_eq (eq_of_beq hdot)
    have hstart : fs.start name = fs.start dir := by rw [start, hname, start, hrel]
    rw [destination, destination, foldl_place_dots hdots, hstart]
  · exact destination_join fs dir hname

theorem destination_entryPath_name (hname : IsName name) :
    fs.destination (entryPath dir name) = fs.destination dir ++ [name] := by
  rw [destination_entryPath hname.isAbsolute_eq_false, hname.steps_eq, List.foldl_cons,
    hname.place_eq, List.foldl_nil]

theorem reachable_entryPath (hname : Path.isAbsolute name = false) :
    fs.Reachable (entryPath dir name) ↔
      fs.Reachable dir ∧ fs.Passable (fs.destination dir) (steps name) := by
  rw [entryPath]
  split
  next hdot =>
    obtain ⟨hrel, hdots⟩ := dots_of_components_eq (eq_of_beq hdot)
    have hstart : fs.start name = fs.start dir := by rw [start, hname, start, hrel]
    rw [destination, foldl_place_dots hdots, Reachable, Reachable, hstart]
    refine ⟨fun h => ⟨?_, h⟩, And.right⟩
    exact passable_dots hdots (directory_of_passable (steps_ne_nil name) h)
  · exact reachable_join hname

variable (hfs : fs.LinkFree)
include hfs

theorem mem_namesIn_iff : name ∈ namesIn fs dir ↔
    fs.isDirectory dir = true ∧ ∃ e, (fs.destination dir ++ [name], e) ∈ fs.entries := by
  rw [namesIn, isDirectory_iff hfs]
  split
  next loc hstat =>
    obtain ⟨hdir, hreach, rfl, hget⟩ := (stat_eq_ok_iff hfs).1 hstat
    simp [hdir, hreach, hget, mem_children_iff]
  next hnot =>
    simp only [List.not_mem_nil, false_iff]
    rintro ⟨⟨hdir, hreach, hget⟩, -⟩
    exact hnot _ ((stat_eq_ok_iff hfs).2 ⟨hdir, hreach, rfl, hget⟩)

theorem mem_namesIn_of_isDirectory (hname : IsName name) (hdir : fs.isDirectory dir = true)
    (h : fs.isDirectory (entryPath dir name) = true) : name ∈ namesIn fs dir := by
  obtain ⟨-, -, hget⟩ := (isDirectory_iff hfs).1 h
  rw [destination_entryPath_name hname] at hget
  exact (mem_namesIn_iff hfs).2 ⟨hdir, _, mem_of_get?_eq_some (by simp) hget⟩

theorem isDirectory_of_mem_namesIn (h : name ∈ namesIn fs dir) : fs.isDirectory dir = true :=
  ((mem_namesIn_iff hfs).1 h).1

end EntryPath

theorem isName_of_mem_namesIn {fs : FileSystem} (hfs : fs.IsLinkFreeTree) {dir name : String}
    (h : name ∈ namesIn fs dir) : IsName name := by
  obtain ⟨-, e, he⟩ := (mem_namesIn_iff hfs.linkFree).1 h
  exact hfs.isName _ he name (by simp)

theorem isDirectory_of_mem_deepEntries {fs : FileSystem} (hfs : fs.LinkFree) {depth : Nat}
    {dir : String} {entry : String × String} (h : entry ∈ deepEntries fs depth dir) :
    fs.isDirectory dir = true := by
  cases depth with
  | zero => cases h
  | succ depth =>
    obtain ⟨name, hname, -⟩ := List.mem_flatMap.1 h
    exact isDirectory_of_mem_namesIn hfs hname

section SameBut

variable {changed : Location → Prop} {fs fs' : FileSystem} (hfs : fs.IsLinkFreeTree)
  (hfs' : fs'.IsLinkFreeTree) (h : SameBut changed fs fs')
include hfs hfs' h

/-- The directories below a directory are found again, however deep they are: no entry is deeper
than there are entries. -/
theorem mem_deepEntries_of_sameBut {depth depth' : Nat} {dir : String} {entry : String × String}
    (hdepth : fs'.entries.length < (fs.destination dir).length + depth')
    (hmem : entry ∈ deepEntries fs depth dir) (hdir : fs.isDirectory entry.2 = true) :
    entry ∈ deepEntries fs' depth' dir := by
  induction depth generalizing dir depth' with
  | zero => cases hmem
  | succ depth ih =>
    obtain ⟨name, hname, hentry⟩ := List.mem_flatMap.1 hmem
    have hproper := isName_of_mem_namesIn hfs hname
    have hin := isDirectory_of_mem_namesIn hfs.linkFree hname
    -- The entry is a directory, by itself or for what is found below it.
    have hsub : fs.isDirectory (entryPath dir name) = true := by
      rcases List.mem_cons.1 hentry with rfl | hdeep
      · exact hdir
      · exact isDirectory_of_mem_deepEntries hfs.linkFree hdeep
    have hname' : name ∈ namesIn fs' dir := by
      refine mem_namesIn_of_isDirectory hfs'.linkFree hproper ?_ ?_
      · rwa [h.isDirectory_eq hfs.linkFree]
      · rwa [h.isDirectory_eq hfs.linkFree]
    have hlength := hfs'.length_le
      (h.directory_of ((isDirectory_iff hfs.linkFree).1 hin).2.2)
    obtain ⟨depth', rfl⟩ : ∃ d, depth' = d + 1 := Nat.exists_eq_succ_of_ne_zero (by omega)
    refine List.mem_flatMap.2 ⟨name, hname', ?_⟩
    rcases List.mem_cons.1 hentry with rfl | hdeep
    · exact List.mem_cons_self
    · refine List.mem_cons_of_mem _ (ih ?_ hdeep)
      rw [destination_entryPath_name hproper, List.length_append, List.length_singleton]
      omega

end SameBut

theorem entryPath_ne_empty (dir : String) {name : String} (hname : name ≠ "") :
    entryPath dir name ≠ "" := by
  rw [entryPath]
  split
  · exact hname
  · exact join_ne_empty dir hname

theorem ne_empty_of_mem_deepEntries {fs : FileSystem} (hfs : fs.IsLinkFreeTree) {depth : Nat}
    {dir : String} {entry : String × String} (h : entry ∈ deepEntries fs depth dir) :
    entry.2 ≠ "" := by
  induction depth generalizing dir with
  | zero => cases h
  | succ depth ih =>
    obtain ⟨name, hname, hentry⟩ := List.mem_flatMap.1 h
    rcases List.mem_cons.1 hentry with rfl | hdeep
    · exact entryPath_ne_empty dir (isName_of_mem_namesIn hfs hname).2.1
    · exact ih hdeep

theorem collapse_subset (ps : List Pattern) : collapse ps ⊆ ps := by
  fun_induction collapse ps with
  | case1 p q ps _ ih => exact fun x hx => List.mem_cons_of_mem _ (ih hx)
  | case2 p q ps _ ih =>
    intro x hx
    rcases List.mem_cons.1 hx with rfl | hx
    · exact List.mem_cons_self
    · exact List.mem_cons_of_mem _ (ih hx)
  | case3 ps => exact fun x hx => hx

theorem mem_segments_of_mem_pieces {cs : List Char} {s : String} (h : s ∈ pieces cs) :
    s ∈ Path.segments cs := by
  unfold pieces at h
  dsimp only at h
  split at h
  · exact List.mem_of_mem_dropLast h
  · exact h

theorem exists_of_mem_mapM {ε α β : Type} {f : α → Except ε β} {xs : List α} {ys : List β}
    (h : xs.mapM f = .ok ys) {y : β} (hy : y ∈ ys) : ∃ x ∈ xs, f x = .ok y := by
  induction xs generalizing ys with
  | nil =>
    cases h
    cases hy
  | cons x xs ih =>
    rw [List.mapM_cons] at h
    obtain ⟨first, hfirst, h⟩ := bind_eq_ok_iff.1 h
    obtain ⟨rest, hrest, h⟩ := bind_eq_ok_iff.1 h
    cases h
    rcases List.mem_cons.1 hy with rfl | hy
    · exact ⟨x, List.mem_cons_self, hfirst⟩
    · obtain ⟨x', hx', hfx'⟩ := ih hrest hy
      exact ⟨x', List.mem_cons_of_mem _ hx', hfx'⟩

theorem isPiece_of_mem_collapse {cs : List Char} {patterns : List Pattern}
    (h : (pieces cs).mapM Pattern.parse = .ok patterns) :
    ∀ p ∈ collapse patterns, IsPiece p := by
  intro p hp hslash
  obtain ⟨s, hs, hparse⟩ := exists_of_mem_mapM h (collapse_subset _ hp)
  exact Path.notMem_of_mem_segments (mem_segments_of_mem_pieces hs) (mem_of_parseFrom hparse hslash)

/-- Where a pattern starts: at the root or in the working directory. -/
def scopeOf (text : String) : String := if Path.isAbsolute text then "/" else "."

/-- The pieces of a pattern after the slash at its start. -/
def pieceTexts (text : String) : List String :=
  pieces (if Path.isAbsolute text then text.toList.tail else text.toList)

theorem scopeOf_ne_empty (text : String) : scopeOf text ≠ "" := by
  rw [scopeOf]
  split <;> decide

theorem expand_eq (fs : FileSystem) (text : String) :
    expand fs text = Pattern.parse text >>= fun _ =>
      (pieceTexts text).mapM Pattern.parse >>= fun ps =>
        pure (expandPieces fs (collapse ps) (scopeOf text)) := by
  unfold expand scopeOf pieceTexts
  split
  next scope cs hscope =>
    split at hscope
    next cs' htext =>
      cases hscope
      have habs : Path.isAbsolute text = true := by rw [Path.isAbsolute, htext]; rfl
      simp only [habs, if_true, htext, List.tail_cons]
    next hnot =>
      cases hscope
      simp only [Path.isAbsolute_eq_false hnot, Bool.false_eq_true, if_false]

theorem ne_empty_of_mem_specialNames {p : Pattern} {name : String} (h : name ∈ specialNames p) :
    name ≠ "" := by
  rw [specialNames.eq_def] at h
  split at h
  · rcases List.mem_pair.1 (List.mem_of_mem_filter h) with rfl | rfl <;> decide
  · cases h

section Pieces

variable {fs : FileSystem} {p : Pattern} {ps : List Pattern} {dir x : String}

/-- The pieces that remain find a path from another one, or none remain. -/
def Continues (fs : FileSystem) (ps : List Pattern) (path x : String) : Prop :=
  ps = [] ∧ x = path ∨ x ∈ expandPieces fs ps path

theorem mem_continueWith_iff {paths : List String} :
    x ∈ continueWith paths (if ps.isEmpty then none else some (expandPieces fs ps)) ↔
      ∃ path ∈ paths, Continues fs ps path x := by
  cases ps with
  | nil => simp [continueWith, Continues, expandPieces]
  | cons p ps => simp [continueWith, Continues]

/-- A literal piece is there. The dot entries are in every directory. -/
def Present (fs : FileSystem) (dir name : String) : Prop :=
  if isSpecial name then fs.isDirectory dir = true else fs.pathExists (entryPath dir name) = true

theorem mem_expandPieces_literal (hfs : fs.LinkFree) {cs : List Char} (hp : p.literal? = some cs) :
    x ∈ expandPieces fs (p :: ps) dir ↔
      Present fs dir (String.ofList cs) ∧
        Continues fs ps (entryPath dir (String.ofList cs)) x := by
  have hpresent : (if isSpecial (String.ofList cs) then fs.isDirectory dir
      else (fs.statLink (entryPath dir (String.ofList cs))).toBool) = true ↔
      Present fs dir (String.ofList cs) := by
    rw [Present, statLink_eq_stat hfs, pathExists]
    split <;> rfl
  rw [expandPieces]
  simp only [hp, ← hpresent]
  generalize (if isSpecial (String.ofList cs) then fs.isDirectory dir
    else (fs.statLink (entryPath dir (String.ofList cs))).toBool) = present
  cases present with
  | false => simp
  | true =>
    rw [if_pos rfl, mem_continueWith_iff]
    simp

theorem mem_expandPieces_recursive (hp : p.literal? = none) (hrec : p.isRecursive = true) :
    x ∈ expandPieces fs (p :: ps) dir ↔ fs.isDirectory dir = true ∧
      ∃ entry ∈ deepEntries fs (depthBound fs) dir,
        match ps with
        | [] => x = entry.2 ∧ fs.isDirectory x = true
        | q :: qs => q.isMatch entry.1.toList = true ∧ Continues fs qs entry.2 x := by
  rw [expandPieces]
  simp only [hp, hrec]
  cases fs.isDirectory dir with
  | false => simp
  | true =>
    cases ps with
    | nil => simp
    | cons q qs =>
      simp only [Bool.not_true, Bool.false_eq_true, if_false, if_true, true_and]
      rw [mem_continueWith_iff]
      constructor
      · rintro ⟨path, hpath, hmore⟩
        obtain ⟨entry, hentry, rfl⟩ := List.mem_map.1 hpath
        obtain ⟨hentry, hmatch⟩ := List.mem_filter.1 hentry
        exact ⟨entry, hentry, hmatch, hmore⟩
      · rintro ⟨entry, hentry, hmatch, hmore⟩
        exact ⟨entry.2, List.mem_map_of_mem (List.mem_filter.2 ⟨hentry, hmatch⟩), hmore⟩

theorem mem_expandPieces_names (hp : p.literal? = none) (hrec : p.isRecursive = false) :
    x ∈ expandPieces fs (p :: ps) dir ↔ fs.isDirectory dir = true ∧
      ∃ path, ((∃ name ∈ namesIn fs dir, p.isMatch name.toList = true ∧ path = entryPath dir name) ∨
          ∃ name ∈ specialNames p, path = Path.join dir name) ∧
        Continues fs ps path x := by
  rw [expandPieces]
  simp only [hp, hrec]
  cases fs.isDirectory dir with
  | false => simp
  | true =>
    simp only [Bool.not_true, Bool.false_eq_true, if_false, true_and]
    rw [mem_continueWith_iff]
    simp only [List.mem_append, List.mem_map, List.mem_filter, and_assoc, eq_comm]

end Pieces

theorem isDirectory_of_mem_expandPieces {fs : FileSystem} (hfs : fs.LinkFree) {ps : List Pattern}
    (hps : ∀ p ∈ ps, IsPiece p) {dir x : String} (hdir : dir ≠ "")
    (h : x ∈ expandPieces fs ps dir) : fs.isDirectory dir = true := by
  cases ps with
  | nil => cases h
  | cons p ps =>
    cases hp : p.literal? with
    | some cs =>
      have hname := isAbsolute_of_literal? (hps p List.mem_cons_self) hp
      have hpresent := ((mem_expandPieces_literal hfs hp).1 h).1
      rw [Present] at hpresent
      split at hpresent
      · exact hpresent
      · obtain ⟨-, hreach, -⟩ := (pathExists_iff hfs).1 hpresent
        obtain ⟨hreach, hpass⟩ := (reachable_entryPath hname).1 hreach
        exact (isDirectory_iff hfs).2 ⟨hdir, hreach, directory_of_passable (steps_ne_nil _) hpass⟩
    | none =>
      cases hrec : p.isRecursive with
      | true => exact ((mem_expandPieces_recursive hp hrec).1 h).1
      | false => exact ((mem_expandPieces_names hp hrec).1 h).1

/-- What the pieces that remain start from is a directory, and from there they find the same. -/
def FoundAgain (fs fs' : FileSystem) (ps : List Pattern) (x : String) : Prop :=
  ∀ qs, qs <:+ ps → ∀ path, path ≠ "" → Continues fs qs path x →
    fs.isDirectory path = true ∧ Continues fs' qs path x

section SameBut

variable {changed : Location → Prop} {fs fs' : FileSystem} (hfs : fs.IsLinkFreeTree)
  (hfs' : fs'.IsLinkFreeTree) (h : SameBut changed fs fs') {p : Pattern} {ps : List Pattern}
  {dir x : String}

include hfs h in
theorem FoundAgain.literal (hagain : FoundAgain fs fs' ps x) {cs : List Char}
    (hp : p.literal? = some cs) (hdirectory : fs'.isDirectory dir = true)
    (hmem : x ∈ expandPieces fs (p :: ps) dir) : x ∈ expandPieces fs' (p :: ps) dir := by
  have hfs' := hfs.linkFree.of_sameBut h
  obtain ⟨hpresent, hcontinues⟩ := (mem_expandPieces_literal hfs.linkFree hp).1 hmem
  refine (mem_expandPieces_literal hfs' hp).2 ?_
  rw [Present] at hpresent ⊢
  split at hpresent
  next hspecial =>
    have hname : String.ofList cs ≠ "" := by
      intro hempty
      rw [hempty] at hspecial
      cases hspecial
    rw [if_pos hspecial]
    exact ⟨hdirectory, (hagain ps List.suffix_rfl _ (entryPath_ne_empty dir hname) hcontinues).2⟩
  next hspecial =>
    obtain ⟨hpath, -, -⟩ := (pathExists_iff hfs.linkFree).1 hpresent
    obtain ⟨hisdir, hcontinues⟩ := hagain ps List.suffix_rfl _ hpath hcontinues
    rw [if_neg hspecial]
    rw [← h.isDirectory_eq hfs.linkFree] at hisdir
    exact ⟨pathExists_of_isDirectory hfs' hisdir, hcontinues⟩

include hfs hfs' h in
theorem FoundAgain.recursive (hagain : FoundAgain fs fs' ps x) (hp : p.literal? = none)
    (hrec : p.isRecursive = true) (hdirectory : fs'.isDirectory dir = true)
    (hmem : x ∈ expandPieces fs (p :: ps) dir) : x ∈ expandPieces fs' (p :: ps) dir := by
  obtain ⟨-, entry, hentry, hcase⟩ := (mem_expandPieces_recursive hp hrec).1 hmem
  refine (mem_expandPieces_recursive hp hrec).2 ⟨hdirectory, entry, ?_⟩
  have hdepth : fs'.entries.length < (fs.destination dir).length + depthBound fs' := by
    unfold depthBound
    omega
  have hdeep := mem_deepEntries_of_sameBut hfs hfs' h hdepth hentry
  cases ps with
  | nil =>
    obtain ⟨rfl, hisdir⟩ := hcase
    exact ⟨hdeep hisdir, rfl, by rwa [h.isDirectory_eq hfs.linkFree]⟩
  | cons q qs =>
    obtain ⟨hmatch, hcontinues⟩ := hcase
    obtain ⟨hisdir, hcontinues⟩ := hagain qs (List.suffix_cons q qs) entry.2
      (ne_empty_of_mem_deepEntries hfs hentry) hcontinues
    exact ⟨hdeep hisdir, hmatch, hcontinues⟩

include hfs h in
theorem FoundAgain.names (hagain : FoundAgain fs fs' ps x) (hp : p.literal? = none)
    (hrec : p.isRecursive = false) (hdirectory : fs'.isDirectory dir = true)
    (hmem : x ∈ expandPieces fs (p :: ps) dir) : x ∈ expandPieces fs' (p :: ps) dir := by
  obtain ⟨-, path, hfound, hcontinues⟩ := (mem_expandPieces_names hp hrec).1 hmem
  refine (mem_expandPieces_names hp hrec).2 ⟨hdirectory, path, ?_⟩
  rcases hfound with ⟨name, hname, hmatch, rfl⟩ | ⟨name, hname, rfl⟩
  · have hproper := isName_of_mem_namesIn hfs hname
    obtain ⟨hisdir, hcontinues⟩ := hagain ps List.suffix_rfl _
      (entryPath_ne_empty dir hproper.2.1) hcontinues
    rw [← h.isDirectory_eq hfs.linkFree] at hisdir
    have hname' :=
      mem_namesIn_of_isDirectory (hfs.linkFree.of_sameBut h) hproper hdirectory hisdir
    exact ⟨.inl ⟨name, hname', hmatch, rfl⟩, hcontinues⟩
  · have hpath := join_ne_empty dir (ne_empty_of_mem_specialNames hname)
    exact ⟨.inr ⟨name, hname, rfl⟩, (hagain ps List.suffix_rfl _ hpath hcontinues).2⟩

end SameBut

section SameBut

variable {changed : Location → Prop} {fs fs' : FileSystem} (hfs : fs.IsLinkFreeTree)
  (hfs' : fs'.IsLinkFreeTree) (h : SameBut changed fs fs')
include hfs hfs' h

theorem mem_expandPieces_of_sameBut {ps : List Pattern} (hps : ∀ p ∈ ps, IsPiece p)
    {dir x : String} (hdir : dir ≠ "") (hx : fs.isDirectory x = true)
    (hmem : x ∈ expandPieces fs ps dir) : x ∈ expandPieces fs' ps dir := by
  induction hn : ps.length using Nat.strong_induction_on generalizing ps dir with
  | _ n ih =>
    subst hn
    cases ps with
    | nil => cases hmem
    | cons p ps =>
      have hdirectory : fs'.isDirectory dir = true := by
        rw [h.isDirectory_eq hfs.linkFree]
        exact isDirectory_of_mem_expandPieces hfs.linkFree hps hdir hmem
      have hagain : FoundAgain fs fs' ps x := by
        intro qs hqs path hpath hcontinues
        have hpieces : ∀ q ∈ qs, IsPiece q := fun q hq =>
          hps q (List.mem_cons_of_mem _ (hqs.subset hq))
        rcases hcontinues with ⟨hnil, rfl⟩ | hmore
        · exact ⟨hx, .inl ⟨hnil, rfl⟩⟩
        · refine ⟨isDirectory_of_mem_expandPieces hfs.linkFree hpieces hpath hmore, .inr ?_⟩
          exact ih qs.length (Nat.lt_succ_of_le hqs.length_le) hpieces hpath hmore rfl
      cases hp : p.literal? with
      | some cs => exact hagain.literal hfs h hp hdirectory hmem
      | none =>
        cases hrec : p.isRecursive with
        | true => exact hagain.recursive hfs hfs' h hp hrec hdirectory hmem
        | false => exact hagain.names hfs h hp hrec hdirectory hmem

theorem mem_expand_of_sameBut {text x : String} {paths : List String}
    (hexpand : expand fs text = .ok paths) (hx : x ∈ paths) (hdir : fs.isDirectory x = true) :
    ∃ paths', expand fs' text = .ok paths' ∧ x ∈ paths' := by
  rw [expand_eq] at hexpand ⊢
  obtain ⟨whole, hwhole, hexpand⟩ := bind_eq_ok_iff.1 hexpand
  obtain ⟨patterns, hpatterns, hexpand⟩ := bind_eq_ok_iff.1 hexpand
  cases hexpand
  refine ⟨expandPieces fs' (collapse patterns) (scopeOf text), ?_, ?_⟩
  · rw [hwhole, hpatterns]
    rfl
  · exact mem_expandPieces_of_sameBut hfs hfs' h (isPiece_of_mem_collapse hpatterns)
      (scopeOf_ne_empty text) hdir hx

end SameBut

end Glob

namespace Scan

section SameBut

variable {changed : Location → Prop} {fs fs' : FileSystem} (hfs : fs.IsLinkFreeTree)
  (hfs' : fs'.IsLinkFreeTree) (h : SameBut changed fs fs')
include hfs hfs' h

theorem mem_includeRoots_of_sameBut {base entry root : String} {roots : List String}
    (hroots : includeRoots fs base entry = .ok roots) (hroot : root ∈ roots)
    (hexists : fs'.pathExists root = true) :
    ∃ roots', includeRoots fs' base entry = .ok roots' ∧ root ∈ roots' := by
  unfold includeRoots at hroots ⊢
  dsimp only at hroots ⊢
  split at hroots
  next hglob =>
    rw [if_pos hglob]
    split at hroots
    next paths hexpand =>
      cases hroots
      obtain ⟨hmem, hdir⟩ := List.mem_filter.1 hroot
      obtain ⟨paths', hexpand', hmem'⟩ :=
        Glob.mem_expand_of_sameBut hfs hfs' h hexpand hmem hdir
      rw [hexpand']
      exact ⟨_, rfl, List.mem_filter.2 ⟨hmem', by rwa [h.isDirectory_eq hfs.linkFree]⟩⟩
    · cases hroots
  next hglob =>
    rw [if_neg hglob]
    split at hroots
    · cases hroots
      rw [List.mem_singleton] at hroot
      rw [← hroot, if_pos hexists]
      exact ⟨_, rfl, List.mem_singleton_self _⟩
    · cases hroots

variable (hchanged : ∀ loc, changed loc → NoSource loc)
include hchanged

theorem mem_files_of_sameBut {base path : String} {includes : List String} {ignored : IgnoreSet}
    (hmem : path ∈ (roots fs base includes).flatMap (filesOf fs ignored)) :
    path ∈ (roots fs' base includes).flatMap (filesOf fs' ignored) := by
  obtain ⟨root, hroot, hpath⟩ := List.mem_flatMap.1 hmem
  obtain ⟨hfinds, hignored, hsource⟩ := mem_filesOf_iff.1 hpath
  have hfinds' := finds_of_sameBut hfs h hchanged hfinds hsource
  refine List.mem_flatMap.2 ⟨root, ?_, mem_filesOf_iff.2 ⟨hfinds', hignored, hsource⟩⟩
  unfold roots at hroot ⊢
  split at hroot
  next hempty => rwa [if_pos hempty]
  next hempty =>
    rw [if_neg hempty]
    obtain ⟨entry, hentry, hroot⟩ := List.mem_flatMap.1 hroot
    refine List.mem_flatMap.2 ⟨entry, hentry, ?_⟩
    cases hroots : includeRoots fs base entry with
    | error event =>
      rw [hroots] at hroot
      cases hroot
    | ok found =>
      rw [hroots] at hroot
      obtain ⟨found', hroots', hroot'⟩ := mem_includeRoots_of_sameBut hfs hfs' h hroots
        hroot (pathExists_of_finds hfs'.linkFree hfinds')
      rw [hroots']
      exact hroot'

end SameBut

theorem files_eq_of_sameBut {changed : Location → Prop} {fs fs' : FileSystem}
    (hfs : fs.IsLinkFreeTree) (hfs' : fs'.IsLinkFreeTree) (h : SameBut changed fs fs')
    (hchanged : ∀ loc, changed loc → NoSource loc) (base : String) (includes ignores : List String)
    (ignoreTests : Bool) :
    (run fs' base includes ignores ignoreTests).files =
      (run fs base includes ignores ignoreTests).files := by
  refine StringSet.ext fun path => ?_
  dsimp only [run]
  rw [StringSet.mem_ofList, StringSet.mem_ofList]
  constructor
  · exact mem_files_of_sameBut hfs' hfs h.symm hchanged
  · exact mem_files_of_sameBut hfs hfs' h hchanged

end Scan

end MessageKeys

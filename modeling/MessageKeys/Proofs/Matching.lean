import MessageKeys.Proofs.Expansion

namespace MessageKeys

open FileSystem

namespace Glob

/-- A pattern stands for a text. A run of components is followed by nothing, or it is empty, or it
ends with a slash. -/
inductive Pattern.Matches : Pattern → List Char → Prop where
  | nil : Matches [] []
  | token {t : Token} {c : Char} {ts : Pattern} {cs : List Char} :
      t.accepts c = true → Matches ts cs → Matches (t :: ts) (c :: cs)
  | sequence (run : List Char) {ts : Pattern} {cs : List Char} :
      Matches ts cs → Matches (.anySequence :: ts) (run ++ cs)
  | components (run : List Char) {ts : Pattern} {cs : List Char} :
      run = [] ∨ cs = [] ∨ run.getLast? = some '/' → Matches ts cs →
        Matches (.anyComponents :: ts) (run ++ cs)

theorem mem_ends_iff {rest cs : List Char} : rest ∈ ends cs ↔ ∃ run, cs = run ++ rest := by
  induction cs with
  | nil => simp [ends]
  | cons c cs ih =>
    rw [ends, List.mem_cons, ih]
    constructor
    · rintro (rfl | ⟨run, rfl⟩)
      · exact ⟨[], rfl⟩
      · exact ⟨c :: run, rfl⟩
    · rintro ⟨run, h⟩
      cases run with
      | nil => exact .inl h.symm
      | cons d run => exact .inr ⟨run, (List.cons.inj h).2⟩

theorem mem_afterSlashes_iff {rest cs : List Char} :
    rest ∈ afterSlashes cs ↔ ∃ run, cs = run ++ '/' :: rest := by
  induction cs with
  | nil => simp [afterSlashes]
  | cons c cs ih =>
    have hcons : (∃ run, c :: cs = run ++ '/' :: rest) ↔
        c = '/' ∧ cs = rest ∨ ∃ run, cs = run ++ '/' :: rest := by
      constructor
      · rintro ⟨run, h⟩
        cases run with
        | nil => exact .inl (List.cons.inj h)
        | cons d run => exact .inr ⟨run, (List.cons.inj h).2⟩
      · rintro (⟨rfl, rfl⟩ | ⟨run, rfl⟩)
        · exact ⟨[], rfl⟩
        · exact ⟨c :: run, rfl⟩
    rw [hcons, ← ih, afterSlashes]
    by_cases hc : c = '/'
    · simp [hc, eq_comm]
    · simp [hc]

namespace Pattern

theorem matches_sequence_iff {ts : Pattern} {cs : List Char} :
    Matches (.anySequence :: ts) cs ↔ ∃ rest ∈ ends cs, Matches ts rest := by
  constructor
  · intro h
    cases h with
    | token haccepts => cases haccepts
    | sequence run hrest => exact ⟨_, mem_ends_iff.2 ⟨run, rfl⟩, hrest⟩
  · rintro ⟨rest, hends, hrest⟩
    obtain ⟨run, rfl⟩ := mem_ends_iff.1 hends
    exact .sequence run hrest

theorem matches_components_iff {ts : Pattern} {cs : List Char} :
    Matches (.anyComponents :: ts) cs ↔
      Matches ts cs ∨ (∃ rest ∈ afterSlashes cs, Matches ts rest) ∨ Matches ts [] := by
  constructor
  · intro h
    cases h with
    | token haccepts => cases haccepts
    | components run hrun hrest =>
      rcases hrun with rfl | rfl | hslash
      · exact .inl hrest
      · exact .inr (.inr hrest)
      · obtain ⟨before, rfl⟩ := List.getLast?_eq_some_iff.1 hslash
        refine .inr (.inl ⟨_, mem_afterSlashes_iff.2 ⟨before, ?_⟩, hrest⟩)
        rw [List.append_assoc, List.singleton_append]
  · rintro (hrest | ⟨rest, hafter, hrest⟩ | hrest)
    · exact .components [] (.inl rfl) hrest
    · obtain ⟨before, rfl⟩ := mem_afterSlashes_iff.1 hafter
      have h := Matches.components (before ++ ['/']) (.inr (.inr List.getLast?_concat)) hrest
      rwa [List.append_assoc, List.singleton_append] at h
    · have h := Matches.components cs (.inr (.inl rfl)) hrest
      rwa [List.append_nil] at h

theorem matches_token_iff {t : Token} {ts : Pattern} {cs : List Char} (hrun : t ≠ .anySequence)
    (hcomponents : t ≠ .anyComponents) :
    Matches (t :: ts) cs ↔ ∃ c rest, cs = c :: rest ∧ t.accepts c = true ∧ Matches ts rest := by
  constructor
  · intro h
    cases h with
    | token haccepts hrest => exact ⟨_, _, rfl, haccepts, hrest⟩
    | sequence => exact absurd rfl hrun
    | components => exact absurd rfl hcomponents
  · rintro ⟨c, rest, rfl, haccepts, hrest⟩
    exact .token haccepts hrest

/-- The test of a pattern finds out whether it stands for the text. -/
theorem isMatch_iff {p : Pattern} {cs : List Char} : p.isMatch cs = true ↔ p.Matches cs := by
  induction p generalizing cs with
  | nil =>
    rw [isMatch, List.isEmpty_iff]
    constructor
    · rintro rfl
      exact .nil
    · intro h
      cases h
      rfl
  | cons t ts ih =>
    by_cases hrun : t = .anySequence
    · subst hrun
      rw [isMatch, List.any_eq_true, matches_sequence_iff]
      simp only [ih]
    by_cases hcomponents : t = .anyComponents
    · subst hcomponents
      rw [isMatch, matches_components_iff, Bool.or_eq_true, Bool.or_eq_true, List.any_eq_true,
        or_assoc]
      simp only [ih]
    · rw [matches_token_iff hrun hcomponents]
      cases cs with
      | nil => simp [isMatch]
      | cons c cs => simp [isMatch, ih]

end Pattern

/-- An entry below a directory, with its name and its path. -/
def Deep (fs : FileSystem) (dir name path : String) : Prop :=
  fs.isDirectory dir = true ∧ ∃ names,
    (∃ e, (fs.destination dir ++ names ++ [name], e) ∈ fs.entries) ∧
      path = (names ++ [name]).foldl entryPath dir

section Deep

variable {fs : FileSystem} (hfs : fs.IsLinkFreeTree) {dir name path : String}
include hfs

theorem deep_of_mem_deepEntries {depth : Nat} (h : (name, path) ∈ deepEntries fs depth dir) :
    Deep fs dir name path := by
  induction depth generalizing dir with
  | zero => cases h
  | succ depth ih =>
    obtain ⟨first, hfirst, hentry⟩ := List.mem_flatMap.1 h
    obtain ⟨hdir, e, he⟩ := (mem_namesIn_iff hfs.linkFree).1 hfirst
    refine ⟨hdir, ?_⟩
    rcases List.mem_cons.1 hentry with heq | hdeep
    · obtain ⟨rfl, rfl⟩ := Prod.mk.inj heq
      exact ⟨[], ⟨e, by rwa [List.append_nil]⟩, rfl⟩
    · obtain ⟨-, names, hentries, hpath⟩ := ih hdeep
      rw [destination_entryPath_name (isName_of_mem_namesIn hfs hfirst)] at hentries
      refine ⟨first :: names, ?_, hpath⟩
      simpa only [List.append_assoc, List.cons_append, List.nil_append] using hentries

theorem isDirectory_entryPath_of_below {below : Location} {e : Entry} (hbelow : below ≠ [])
    (hdir : fs.isDirectory dir = true)
    (h : (fs.destination dir ++ [name] ++ below, e) ∈ fs.entries) :
    name ∈ namesIn fs dir ∧ fs.isDirectory (entryPath dir name) = true := by
  obtain ⟨e', he'⟩ := get?_isSome_of_mem h
  have hget := hfs.directory_of_append hbelow he'
  have hmem := mem_of_get?_eq_some (by simp) hget
  have hname : IsName name := hfs.isName _ hmem name (by simp)
  obtain ⟨-, hreach, hget'⟩ := (isDirectory_iff hfs.linkFree).1 hdir
  refine ⟨(mem_namesIn_iff hfs.linkFree).2 ⟨hdir, _, hmem⟩,
    (isDirectory_iff hfs.linkFree).2 ⟨?_, ?_, ?_⟩⟩
  · exact entryPath_ne_empty dir hname.2.1
  · rw [reachable_entryPath hname.isAbsolute_eq_false, hname.steps_eq, passable_name]
    exact ⟨hreach, hget'⟩
  · rwa [destination_entryPath_name hname]

theorem mem_deepEntries_of_entry {names : Location} {e : Entry} {depth : Nat}
    (hdir : fs.isDirectory dir = true)
    (h : (fs.destination dir ++ names ++ [name], e) ∈ fs.entries) (hdepth : names.length < depth) :
    (name, (names ++ [name]).foldl entryPath dir) ∈ deepEntries fs depth dir := by
  induction names generalizing dir depth with
  | nil =>
    obtain ⟨depth, rfl⟩ := Nat.exists_eq_succ_of_ne_zero (Nat.ne_of_gt hdepth)
    rw [List.append_nil] at h
    exact List.mem_flatMap.2
      ⟨name, (mem_namesIn_iff hfs.linkFree).2 ⟨hdir, e, h⟩, List.mem_cons_self⟩
  | cons first names ih =>
    obtain ⟨depth, rfl⟩ := Nat.exists_eq_succ_of_ne_zero (Nat.ne_of_gt (Nat.zero_lt_of_lt hdepth))
    have hsplit : fs.destination dir ++ first :: names ++ [name] =
        fs.destination dir ++ [first] ++ (names ++ [name]) := by simp
    rw [hsplit] at h
    obtain ⟨hfirst, hsub⟩ := isDirectory_entryPath_of_below hfs (by simp) hdir h
    have hproper := isName_of_mem_namesIn hfs hfirst
    refine List.mem_flatMap.2 ⟨first, hfirst, List.mem_cons_of_mem _ (ih hsub ?_ ?_)⟩
    · rwa [destination_entryPath_name hproper, List.append_assoc _ names]
    · exact Nat.lt_of_succ_lt_succ hdepth

/-- All entries below a directory are found: none is deeper than the bound. -/
theorem mem_deepEntries_iff :
    (name, path) ∈ deepEntries fs (depthBound fs) dir ↔ Deep fs dir name path := by
  constructor
  · exact deep_of_mem_deepEntries hfs
  · rintro ⟨hdir, names, ⟨e, he⟩, rfl⟩
    refine mem_deepEntries_of_entry hfs hdir he ?_
    obtain ⟨e', he'⟩ := get?_isSome_of_mem he
    have hlength := hfs.length_le he'
    rw [List.length_append, List.length_append, List.length_singleton] at hlength
    unfold depthBound
    omega

end Deep

theorem literal?_of_isRecursive {p : Pattern} (h : p.isRecursive = true) : p.literal? = none := by
  induction p with
  | nil => cases h
  | cons t ts ih =>
    cases t with
    | char c =>
      have hts : Pattern.isRecursive ts = true := by
        simpa [Pattern.isRecursive] using h
      rw [Pattern.literal?, ih hts]
      rfl
    | _ => rfl

/-- The pieces of a pattern lead from a directory to a path: a literal piece to the entry of that
name, two stars to any depth, another piece to the entries that it matches. -/
inductive Reaches (fs : FileSystem) : List Pattern → String → String → Prop where
  | done (path : String) : Reaches fs [] path path
  | literal {p : Pattern} {ps : List Pattern} {dir x : String} {cs : List Char} :
      p.literal? = some cs → Present fs dir (String.ofList cs) →
        Reaches fs ps (entryPath dir (String.ofList cs)) x → Reaches fs (p :: ps) dir x
  | name {p : Pattern} {ps : List Pattern} {dir name x : String} :
      p.literal? = none → p.isRecursive = false → name ∈ namesIn fs dir →
        p.Matches name.toList → Reaches fs ps (entryPath dir name) x → Reaches fs (p :: ps) dir x
  | special {p : Pattern} {ps : List Pattern} {dir name x : String} :
      p.literal? = none → p.isRecursive = false → fs.isDirectory dir = true →
        name ∈ specialNames p → Reaches fs ps (Path.join dir name) x → Reaches fs (p :: ps) dir x
  | directories {p : Pattern} {dir name x : String} :
      p.isRecursive = true → Deep fs dir name x → fs.isDirectory x = true → Reaches fs [p] dir x
  | deep {p q : Pattern} {qs : List Pattern} {dir name path x : String} :
      p.isRecursive = true → Deep fs dir name path → q.Matches name.toList →
        Reaches fs qs path x → Reaches fs (p :: q :: qs) dir x

section Reaches

variable {fs : FileSystem} (hfs : fs.IsLinkFreeTree)
include hfs

theorem continues_of_reaches {ps : List Pattern} {dir x : String} (h : Reaches fs ps dir x) :
    Continues fs ps dir x := by
  induction h with
  | done path => exact .inl ⟨rfl, rfl⟩
  | literal hp hpresent _ ih =>
    exact .inr ((mem_expandPieces_literal hfs.linkFree hp).2 ⟨hpresent, ih⟩)
  | name hp hrec hname hmatch _ ih =>
    have hdir := isDirectory_of_mem_namesIn hfs.linkFree hname
    exact .inr ((mem_expandPieces_names hp hrec).2 ⟨hdir, _,
      .inl ⟨_, hname, Pattern.isMatch_iff.2 hmatch, rfl⟩, ih⟩)
  | special hp hrec hdir hname _ ih =>
    exact .inr ((mem_expandPieces_names hp hrec).2 ⟨hdir, _, .inr ⟨_, hname, rfl⟩, ih⟩)
  | directories hrec hdeep hdir =>
    exact .inr ((mem_expandPieces_recursive (literal?_of_isRecursive hrec) hrec).2
      ⟨hdeep.1, _, (mem_deepEntries_iff hfs).2 hdeep, rfl, hdir⟩)
  | deep hrec hdeep hmatch _ ih =>
    exact .inr ((mem_expandPieces_recursive (literal?_of_isRecursive hrec) hrec).2
      ⟨hdeep.1, _, (mem_deepEntries_iff hfs).2 hdeep, Pattern.isMatch_iff.2 hmatch, ih⟩)

theorem reaches_of_continues {ps : List Pattern} {dir x : String} (h : Continues fs ps dir x) :
    Reaches fs ps dir x := by
  -- Two pieces are used up at once after two stars, hence the induction on the length.
  induction hn : ps.length using Nat.strong_induction_on generalizing ps dir with
  | _ n ih =>
    subst hn
    rcases h with ⟨rfl, rfl⟩ | hmem
    · exact .done x
    cases ps with
    | nil => cases hmem
    | cons p ps =>
      cases hp : p.literal? with
      | some cs =>
        obtain ⟨hpresent, hmore⟩ := (mem_expandPieces_literal hfs.linkFree hp).1 hmem
        exact .literal hp hpresent (ih ps.length (by simp) hmore rfl)
      | none =>
        cases hrec : p.isRecursive with
        | true =>
          obtain ⟨-, ⟨name, path⟩, hentry, hcase⟩ := (mem_expandPieces_recursive hp hrec).1 hmem
          have hdeep := (mem_deepEntries_iff hfs).1 hentry
          cases ps with
          | nil =>
            obtain ⟨rfl, hdir⟩ := hcase
            exact .directories hrec hdeep hdir
          | cons q qs =>
            obtain ⟨hmatch, hmore⟩ := hcase
            exact .deep hrec hdeep (Pattern.isMatch_iff.1 hmatch) (ih qs.length (by simp) hmore rfl)
        | false =>
          obtain ⟨hdir, path, hfound, hmore⟩ := (mem_expandPieces_names hp hrec).1 hmem
          have hreaches := ih ps.length (by simp) hmore rfl
          rcases hfound with ⟨name, hname, hmatch, rfl⟩ | ⟨name, hname, rfl⟩
          · exact .name hp hrec hname (Pattern.isMatch_iff.1 hmatch) hreaches
          · exact .special hp hrec hdir hname hreaches

theorem mem_expandPieces_iff {ps : List Pattern} (hps : ps ≠ []) {dir x : String} :
    x ∈ expandPieces fs ps dir ↔ Reaches fs ps dir x := by
  constructor
  · intro h
    exact reaches_of_continues hfs (.inr h)
  · intro h
    exact (continues_of_reaches hfs h).resolve_left fun hnil => hps hnil.1

end Reaches

/-- A path is one of those that a pattern stands for: the pieces lead to it. -/
def StandsFor (fs : FileSystem) (text path : String) : Prop :=
  (∃ whole, Pattern.parse text = .ok whole) ∧ ∃ ps, ps ≠ [] ∧
    List.Forall₂ (fun piece p => Pattern.parse piece = .ok p) (pieceTexts text) ps ∧
      Reaches fs (collapse ps) (scopeOf text) path

theorem mapM_eq_ok_iff {ε α β : Type} {f : α → Except ε β} {xs : List α} {ys : List β} :
    xs.mapM f = .ok ys ↔ List.Forall₂ (fun x y => f x = .ok y) xs ys := by
  induction xs generalizing ys with
  | nil =>
    rw [List.forall₂_nil_left_iff]
    constructor
    · intro h
      cases h
      rfl
    · rintro rfl
      rfl
  | cons x xs ih =>
    rw [List.mapM_cons, bind_eq_ok_iff, List.forall₂_cons_left_iff]
    constructor
    · rintro ⟨y, hy, h⟩
      obtain ⟨zs, hzs, h⟩ := bind_eq_ok_iff.1 h
      cases h
      exact ⟨y, zs, hy, ih.1 hzs, rfl⟩
    · rintro ⟨y, zs, hy, hzs, rfl⟩
      exact ⟨y, hy, bind_eq_ok_iff.2 ⟨zs, ih.2 hzs, rfl⟩⟩

theorem collapse_eq_nil_iff {ps : List Pattern} : collapse ps = [] ↔ ps = [] := by
  fun_induction collapse ps with
  | case1 p q ps _ ih => simp [ih]
  | case2 p q ps _ ih => simp
  | case3 ps => rfl

/-- The expansion of a pattern lists the paths that it stands for. -/
theorem exists_expand_iff {fs : FileSystem} (hfs : fs.IsLinkFreeTree)
    {text x : String} :
    (∃ paths, expand fs text = .ok paths ∧ x ∈ paths) ↔ StandsFor fs text x := by
  rw [expand_eq]
  constructor
  · rintro ⟨paths, hexpand, hx⟩
    obtain ⟨whole, hwhole, hexpand⟩ := bind_eq_ok_iff.1 hexpand
    obtain ⟨ps, hps, hexpand⟩ := bind_eq_ok_iff.1 hexpand
    cases hexpand
    have hne : ps ≠ [] := by
      rintro rfl
      cases hx
    have hcollapse : collapse ps ≠ [] := fun h => hne (collapse_eq_nil_iff.1 h)
    exact ⟨⟨whole, hwhole⟩, ps, hne, mapM_eq_ok_iff.1 hps,
      (mem_expandPieces_iff hfs hcollapse).1 hx⟩
  · rintro ⟨⟨whole, hwhole⟩, ps, hne, hps, hreaches⟩
    have hcollapse : collapse ps ≠ [] := fun h => hne (collapse_eq_nil_iff.1 h)
    refine ⟨_, ?_, (mem_expandPieces_iff hfs hcollapse).2 hreaches⟩
    rw [hwhole, mapM_eq_ok_iff.2 hps]
    rfl

end Glob

end MessageKeys

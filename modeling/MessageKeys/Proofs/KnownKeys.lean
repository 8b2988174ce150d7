import MessageKeys.Proofs.ReportFiles

namespace MessageKeys

open Json (Value)

namespace Json.Value

def isObject : Value → Bool
  | object _ => true
  | _ => false

theorem sizeOf_lt_of_mem_members {members : List (String × Value)} {member : String × Value}
    (h : member ∈ members) : sizeOf member.2 < sizeOf (object members) := by
  have hmember : sizeOf member < sizeOf members := List.sizeOf_lt_of_mem h
  obtain ⟨name, v⟩ := member
  simp only [Prod.mk.sizeOf_spec] at hmember
  simp only [object.sizeOf_spec]
  omega

theorem members_induction {motive : Value → Prop} (leaf : ∀ v, v.isObject = false → motive v)
    (object : ∀ members, (∀ member ∈ members, motive member.2) → motive (object members)) :
    ∀ v, motive v
  | .object members => object members fun member _ => members_induction leaf object member.2
  | .null | .bool _ | .number _ | .string _ | .array _ => leaf _ rfl
termination_by v => sizeOf v
decreasing_by exact sizeOf_lt_of_mem_members ‹_›

/-- The names of members from a value down to one that is no object. -/
inductive LeafPath : Value → List String → Prop where
  | leaf {v : Value} : v.isObject = false → LeafPath v []
  | member {members : List (String × Value)} {name : String} {v : Value} {path : List String} :
    (name, v) ∈ members → LeafPath v path → LeafPath (object members) (name :: path)

theorem leafPath_leaf_iff {v : Value} {path : List String} (h : v.isObject = false) :
    LeafPath v path ↔ path = [] := by
  constructor
  · intro hpath
    cases hpath with
    | leaf _ => rfl
    | member _ _ => cases h
  · rintro rfl
    exact .leaf h

theorem leafPath_object_iff {members : List (String × Value)} {path : List String} :
    LeafPath (object members) path ↔
      ∃ member ∈ members, ∃ rest, LeafPath member.2 rest ∧ path = member.1 :: rest := by
  constructor
  · intro hpath
    cases hpath with
    | leaf h => cases h
    | member hmem hrest => exact ⟨_, hmem, _, hrest, rfl⟩
  · rintro ⟨member, hmem, rest, hrest, rfl⟩
    exact .member hmem hrest

/-- Other values at the ends, or members in another order, at any depth. -/
inductive Reshaped : Value → Value → Prop where
  | leaf {v w : Value} : v.isObject = false → w.isObject = false → Reshaped v w
  | reordered {members members' : List (String × Value)} :
    members.Perm members' → Reshaped (object members) (object members')
  | inside {before after : List (String × Value)} {name : String} {v w : Value} :
    Reshaped v w →
      Reshaped (object (before ++ (name, v) :: after)) (object (before ++ (name, w) :: after))
  | trans {u v w : Value} : Reshaped u v → Reshaped v w → Reshaped u w

theorem Reshaped.leafPath_iff {v w : Value} (h : Reshaped v w) (path : List String) :
    LeafPath v path ↔ LeafPath w path := by
  induction h generalizing path with
  | leaf hv hw => rw [leafPath_leaf_iff hv, leafPath_leaf_iff hw]
  | reordered hperm =>
    rw [leafPath_object_iff, leafPath_object_iff]
    simp only [hperm.mem_iff]
  | inside _ ih =>
    rw [leafPath_object_iff, leafPath_object_iff]
    simp only [List.mem_append, List.mem_cons, or_and_right, exists_or, exists_eq_left, ih]
  | trans _ _ ih ih' => exact (ih path).trans (ih' path)

end Json.Value

namespace Catalogue

open Json.Value (LeafPath Reshaped leafPath_leaf_iff leafPath_object_iff)

theorem flatten_leaf {key : String} {v : Value} (h : v.isObject = false) :
    flatten key v = if key.isEmpty then [] else [key] := by
  cases v with
  | object members => cases h
  | _ => rfl

theorem flattenMembers_eq_flatMap (key : String) (members : List (String × Value)) :
    flattenMembers key members =
      members.flatMap fun member => flatten (extendKey key member.1) member.2 := by
  induction members with
  | nil => rfl
  | cons member members ih => rw [flattenMembers, ih, List.flatMap_cons]

/-- A key is found at the end of each path, unless it is empty there. -/
theorem mem_flatten_iff {k key : String} {v : Value} :
    k ∈ flatten key v ↔ k ≠ "" ∧ ∃ path, LeafPath v path ∧ k = path.foldl extendKey key := by
  induction v using Json.Value.members_induction generalizing key with
  | leaf v hv =>
    rw [flatten_leaf hv]
    simp only [leafPath_leaf_iff hv, exists_eq_left, List.foldl_nil]
    by_cases hkey : key = ""
    · simp [hkey]
    · rw [if_neg (by simpa using hkey), List.mem_singleton]
      exact ⟨fun hk => ⟨hk ▸ hkey, hk⟩, And.right⟩
  | object members ih =>
    rw [flatten, flattenMembers_eq_flatMap, List.mem_flatMap]
    simp only [leafPath_object_iff]
    constructor
    · rintro ⟨member, hmem, hk⟩
      obtain ⟨hne, rest, hrest, hfold⟩ := (ih member hmem).1 hk
      exact ⟨hne, _, ⟨member, hmem, rest, hrest, rfl⟩, hfold⟩
    · rintro ⟨hne, _, ⟨member, hmem, rest, hrest, rfl⟩, hfold⟩
      exact ⟨member, hmem, (ih member hmem).2 ⟨hne, rest, hrest, hfold⟩⟩

/-- The key at the end of a path: its names with dots between them, less the empty ones at the
start. -/
def leafKey (path : List String) : String :=
  ".".intercalate (path.dropWhile (·.isEmpty))

theorem foldl_extendKey {key : String} (hkey : key ≠ "") (path : List String) :
    path.foldl extendKey key = ".".intercalate (key :: path) := by
  induction path generalizing key with
  | nil => simp
  | cons name path ih =>
    have hextended : extendKey key name = key ++ "." ++ name := if_neg (by simpa using hkey)
    rw [List.foldl_cons, hextended, ih (by simp [hkey]), String.intercalate_cons_cons,
      String.intercalate_cons_append]

theorem foldl_extendKey_empty (path : List String) : path.foldl extendKey "" = leafKey path := by
  induction path with
  | nil => rfl
  | cons name path ih =>
    have hextended : extendKey "" name = name := rfl
    rw [List.foldl_cons, hextended, leafKey]
    by_cases hname : name = ""
    · subst hname
      exact ih
    · rw [foldl_extendKey hname, List.dropWhile_cons_of_neg (by simpa using hname)]

theorem leafKey_ne_empty_iff {path : List String} :
    leafKey path ≠ "" ↔ ∃ name ∈ path, name ≠ "" := by
  induction path with
  | nil => simp [leafKey]
  | cons name path ih =>
    by_cases hname : name = ""
    · subst hname
      have hrest : leafKey ("" :: path) = leafKey path := rfl
      simpa [hrest] using ih
    · have hfirst : ∃ n ∈ name :: path, n ≠ "" := ⟨name, List.mem_cons_self, hname⟩
      refine iff_of_true ?_ hfirst
      rw [leafKey, List.dropWhile_cons_of_neg (by simpa using hname)]
      cases path with
      | nil => simpa using hname
      | cons next path => simp [hname]

theorem mem_flattenMembers_iff {k : String} {members : List (String × Value)} :
    k ∈ flattenMembers "" members ↔
      ∃ path, LeafPath (.object members) path ∧ (∃ name ∈ path, name ≠ "") ∧ k = leafKey path := by
  have hflatten : flattenMembers "" members = flatten "" (.object members) := by rw [flatten]
  rw [hflatten, mem_flatten_iff]
  simp only [foldl_extendKey_empty, ← leafKey_ne_empty_iff]
  constructor
  · rintro ⟨hne, path, hpath, rfl⟩
    exact ⟨path, hpath, hne, rfl⟩
  · rintro ⟨path, hpath, hne, rfl⟩
    exact ⟨hne, path, hpath, rfl⟩

theorem exists_map_eq_error_iff {ε α β : Type} {x : Except ε α} {f : α → β} :
    (∃ e, x.map f = .error e) ↔ ∃ e, x = .error e := by
  cases x <;> simp [Except.map]

theorem strings_eq_error_iff {items : List Value} :
    (∃ problem, strings items = .error problem) ↔ ∃ item ∈ items, ∀ s, item ≠ .string s := by
  induction items with
  | nil => simp [strings]
  | cons item items ih =>
    cases item with
    | string s =>
      have hcons : strings (.string s :: items) = (strings items).map (s :: ·) := rfl
      rw [hcons, exists_map_eq_error_iff, ih]
      simp
    | _ => simp [strings]

theorem keysOf_eq_error_iff {v : Value} :
    (∃ problem, keysOf v = .error problem) ↔
      (∀ items, v ≠ .array items) ∧ (∀ members, v ≠ .object members) ∨
        ∃ items, v = .array items ∧ ∃ item ∈ items, ∀ s, item ≠ .string s := by
  cases v with
  | array items =>
    have hkeys : keysOf (.array items) = (strings items).map StringSet.ofList := rfl
    rw [hkeys, exists_map_eq_error_iff, strings_eq_error_iff]
    simp
  | _ => simp [keysOf]

theorem keysOf_object_eq_of_reshaped {members members' : List (String × Value)}
    (h : Reshaped (.object members) (.object members')) :
    keysOf (.object members) = keysOf (.object members') := by
  refine congrArg Except.ok (StringSet.ext fun k => ?_)
  simp only [StringSet.mem_ofList, mem_flattenMembers_iff, h.leafPath_iff]

/-- Only lists of strings and objects are understood. A list stands for its items, and an object
for the names down to each value that is no object, joined with dots from the first one on that is
not empty. Other values there, and another order of the members, do not change the keys. -/
theorem keysOf_eq_leafKeys :
    (∀ v, (∃ problem, keysOf v = .error problem) ↔
      (∀ items, v ≠ .array items) ∧ (∀ members, v ≠ .object members) ∨
        ∃ items, v = .array items ∧ ∃ item ∈ items, ∀ s, item ≠ .string s) ∧
    (∀ ss, ∃ keys, keysOf (.strings ss) = .ok keys ∧ ∀ k, k ∈ keys ↔ k ∈ ss) ∧
    (∀ members, ∃ keys, keysOf (.object members) = .ok keys ∧ ∀ k, k ∈ keys ↔
      ∃ path, LeafPath (.object members) path ∧ (∃ name ∈ path, name ≠ "") ∧
        k = ".".intercalate (path.dropWhile (·.isEmpty))) ∧
    ∀ members members', Reshaped (.object members) (.object members') →
      keysOf (.object members) = keysOf (.object members') := by
  refine ⟨fun v => keysOf_eq_error_iff, fun ss => ?_, fun members => ?_, fun _ _ h => ?_⟩
  · exact ⟨_, keysOf_strings ss, fun k => StringSet.mem_ofList⟩
  · exact ⟨_, rfl, fun k => StringSet.mem_ofList.trans mem_flattenMembers_iff⟩
  · exact keysOf_object_eq_of_reshaped h

def dottedMembers (v : Value) : List (String × Value) :=
  [("", .object [("home", .object [("", .null), ("title", .string "Home")]), ("", .null)]),
    ("a.b", v), ("a", .object [("b", .null)]), ("none", .object [])]

theorem keysOf_eq_leafKeys_dottedMembers :
    Reshaped (.object (dottedMembers .null)) (.object (dottedMembers (.array [])).reverse) ∧
      keysOf (.object (dottedMembers .null)) = .ok (.ofList ["a.b", "home.", "home.title"]) ∧
      keysOf (.object (dottedMembers .null)) =
        keysOf (.object (dottedMembers (.array [])).reverse) := by
  have hleaf : Reshaped (.object (dottedMembers .null)) (.object (dottedMembers (.array []))) :=
    @Reshaped.inside [_] _ "a.b" _ _ (.leaf rfl rfl)
  have hshape := hleaf.trans (.reordered (List.reverse_perm _).symm)
  exact ⟨hshape, rfl, keysOf_eq_leafKeys.2.2.2 _ _ hshape⟩

end Catalogue

end MessageKeys

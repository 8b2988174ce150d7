namespace MessageKeys

namespace StringSet

/-- Puts a string into its place in an increasing list, unless it is there already. -/
def insertSorted (x : String) : List String → List String
  | [] => [x]
  | k :: ks =>
    if x < k then x :: k :: ks
    else if x = k then k :: ks
    else k :: insertSorted x ks

theorem mem_insertSorted {a x : String} {ks : List String} :
    a ∈ insertSorted x ks ↔ a = x ∨ a ∈ ks := by
  induction ks with
  | nil => simp [insertSorted]
  | cons k ks ih => grind [insertSorted]

theorem insertSorted_sorted (x : String) {ks : List String} (h : ks.Pairwise (· < ·)) :
    (insertSorted x ks).Pairwise (· < ·) := by
  induction ks with
  | nil => simp [insertSorted]
  | cons k ks ih =>
    obtain ⟨hk, hks⟩ := List.pairwise_cons.1 h
    simp only [insertSorted]
    split
    next hlt =>
      refine List.pairwise_cons.2 ⟨fun b hb => ?_, h⟩
      rcases List.mem_cons.1 hb with rfl | hb
      · exact hlt
      · exact String.lt_trans hlt (hk b hb)
    next hlt =>
      split
      next => exact h
      next hne =>
        refine List.pairwise_cons.2 ⟨fun b hb => ?_, ih hks⟩
        rcases mem_insertSorted.1 hb with rfl | hb
        · grind
        · exact hk b hb

end StringSet

/-- Strings in strictly increasing order of their code points, which is also that of their UTF-8
bytes. -/
structure StringSet where
  toList : List String
  sorted : toList.Pairwise (· < ·)
deriving DecidableEq

namespace StringSet

def empty : StringSet := ⟨[], .nil⟩

instance : EmptyCollection StringSet := ⟨empty⟩
instance : Inhabited StringSet := ⟨empty⟩
instance : Membership String StringSet := ⟨fun s x => x ∈ s.toList⟩

instance (x : String) (s : StringSet) : Decidable (x ∈ s) :=
  inferInstanceAs (Decidable (x ∈ s.toList))

def insert (s : StringSet) (x : String) : StringSet :=
  ⟨insertSorted x s.toList, insertSorted_sorted x s.sorted⟩

def insertAll (s : StringSet) (xs : List String) : StringSet :=
  xs.foldl insert s

def ofList (xs : List String) : StringSet :=
  empty.insertAll xs

def union (s t : StringSet) : StringSet :=
  s.insertAll t.toList

def diff (s t : StringSet) : StringSet :=
  ⟨s.toList.filter (· ∉ t), s.sorted.filter _⟩

def isEmpty (s : StringSet) : Bool := s.toList.isEmpty

def size (s : StringSet) : Nat := s.toList.length

end StringSet

end MessageKeys

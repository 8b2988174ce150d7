import Mathlib.Data.List.Forall2
import Mathlib.Data.List.Sort
import Mathlib.Data.Set.Card
import Mathlib.Data.String.Basic
import MessageKeys.Text.StringSet

namespace MessageKeys

def utf8Bytes (s : String) : List UInt8 := s.toUTF8.data.toList

theorem charValue_lt (c : Char) : c.val.toNat < 0x110000 := by
  have h := c.valid
  simp only [UInt32.isValidChar, Nat.isValidChar] at h
  omega

/-- A smaller character has smaller bytes, whatever follows them: no code is the start of
another. -/
theorem utf8EncodeChar_append_lt {c d : Char} (h : c < d) (x y : List UInt8) :
    String.utf8EncodeChar c ++ x < String.utf8EncodeChar d ++ y := by
  have hv : c.val.toNat < d.val.toNat := h
  have hc := charValue_lt c
  have hd := charValue_lt d
  -- Digits of base 64 one after the other; `omega` does not relate the larger divisors itself.
  have h2 (k : Nat) : k / 4096 = k / 64 / 64 := by omega
  have h3 (k : Nat) : k / 262144 = k / 64 / 64 / 64 := by omega
  have hm (k : Nat) : (k % 64 + 128) % 256 = k % 64 + 128 := by omega
  have ht (k : Nat) : (k % 8 + 240) % 256 = k % 8 + 240 := by omega
  simp only [String.utf8EncodeChar]
  generalize c.val.toNat = m at *
  generalize d.val.toNat = n at *
  -- One to four bytes on each side; of different lengths, the first byte decides.
  split_ifs <;>
    simp only [List.cons_append, List.nil_append, List.cons_lt_cons_iff, UInt8.lt_iff_toNat_lt,
      ← UInt8.toNat_inj, UInt8.toNat_ofNat', Nat.reducePow, h2, h3, hm, ht] <;>
    omega

theorem utf8Bytes_ofList_cons (c : Char) (cs : List Char) :
    utf8Bytes (String.ofList (c :: cs)) =
      String.utf8EncodeChar c ++ utf8Bytes (String.ofList cs) := by
  simp [utf8Bytes, List.utf8Encode]

theorem utf8Bytes_ofList_lt {cs ds : List Char} (h : cs < ds) :
    utf8Bytes (String.ofList cs) < utf8Bytes (String.ofList ds) := by
  induction h with
  | @nil c cs =>
    rw [utf8Bytes_ofList_cons, List.lt_iff_exists]
    simp [utf8Bytes, c.utf8Size_pos]
  | rel hcd =>
    rw [utf8Bytes_ofList_cons, utf8Bytes_ofList_cons]
    exact utf8EncodeChar_append_lt hcd _ _
  | cons _ ih =>
    rw [utf8Bytes_ofList_cons, utf8Bytes_ofList_cons]
    exact List.append_left_lt ih

theorem utf8Bytes_lt_of_lt {a b : String} (h : a < b) : utf8Bytes a < utf8Bytes b := by
  have hl : utf8Bytes (String.ofList a.toList) < utf8Bytes (String.ofList b.toList) :=
    utf8Bytes_ofList_lt h
  simpa only [String.ofList_toList] using hl

theorem lt_iff_utf8Bytes_lt {a b : String} : a < b ↔ utf8Bytes a < utf8Bytes b := by
  refine ⟨utf8Bytes_lt_of_lt, fun h => ?_⟩
  rcases lt_trichotomy a b with hab | rfl | hba
  · exact hab
  · exact absurd h (List.lt_irrefl _)
  · exact absurd h (List.lt_asymm (utf8Bytes_lt_of_lt hba))

namespace StringSet

@[simp] theorem notMem_empty (x : String) : x ∉ (∅ : StringSet) := List.not_mem_nil

@[simp] theorem mem_insert {s : StringSet} {x a : String} : a ∈ s.insert x ↔ a = x ∨ a ∈ s :=
  mem_insertSorted

@[simp] theorem mem_insertAll {s : StringSet} {xs : List String} {a : String} :
    a ∈ s.insertAll xs ↔ a ∈ s ∨ a ∈ xs := by
  induction xs generalizing s with
  | nil => simp [insertAll]
  | cons x xs ih =>
    rw [insertAll, List.foldl_cons, ← insertAll, ih, mem_insert, List.mem_cons]
    tauto

@[simp] theorem mem_ofList {xs : List String} {a : String} : a ∈ ofList xs ↔ a ∈ xs := by
  rw [ofList, mem_insertAll]
  exact or_iff_right (notMem_empty a)

theorem ofList_append (xs ys : List String) : ofList (xs ++ ys) = (ofList xs).insertAll ys := by
  rw [ofList, insertAll, List.foldl_append]
  rfl

theorem mem_toList {s : StringSet} {a : String} : a ∈ s.toList ↔ a ∈ s := Iff.rfl

@[simp] theorem mem_union {s t : StringSet} {a : String} : a ∈ s.union t ↔ a ∈ s ∨ a ∈ t := by
  rw [union, mem_insertAll, mem_toList]

@[simp] theorem mem_diff {s t : StringSet} {a : String} : a ∈ s.diff t ↔ a ∈ s ∧ a ∉ t := by
  rw [← mem_toList, diff, List.mem_filter, decide_eq_true_eq, mem_toList]

theorem ext {s t : StringSet} (h : ∀ a, a ∈ s ↔ a ∈ t) : s = t := by
  obtain ⟨xs, hxs⟩ := s
  obtain ⟨ys, hys⟩ := t
  congr
  exact List.Pairwise.eq_of_mem_iff hxs hys fun a => h a

theorem ofList_toList (s : StringSet) : ofList s.toList = s := ext fun _ => mem_ofList

theorem nodup_toList (s : StringSet) : s.toList.Nodup := s.sorted.imp fun h => ne_of_lt h

theorem size_eq_ncard (s : StringSet) : s.size = {a | a ∈ s}.ncard := by
  have hs : {a | a ∈ s} = (s.toList.toFinset : Set String) := by
    ext a
    simp [mem_toList]
  rw [hs, Set.ncard_coe_finset, List.toFinset_card_of_nodup s.nodup_toList, size]

theorem toList_utf8Bytes_sorted (s : StringSet) :
    s.toList.Pairwise fun a b => utf8Bytes a < utf8Bytes b :=
  s.sorted.imp fun h => utf8Bytes_lt_of_lt h

end StringSet

theorem forall₂_iff_map_eq {α β : Type} {r : α → β → Prop} {f : α → β}
    (h : ∀ a b, r a b ↔ f a = b) (as : List α) (bs : List β) :
    List.Forall₂ r as bs ↔ as.map f = bs := by
  rw [show r = fun a b => f a = b from funext₂ fun a b => propext (h a b),
    ← List.forall₂_map_left_iff, List.forall₂_eq_eq_eq]

end MessageKeys

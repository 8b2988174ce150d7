import MessageKeys.Proofs.StringOrder
import MessageKeys.Terminal.Summary

namespace MessageKeys

namespace Issue

theorem lineLE_refl (l : Option Nat) : lineLE l l = true := by
  cases l <;> simp [lineLE]

theorem lineLE_trans {k l m : Option Nat} (h : lineLE k l = true) (h' : lineLE l m = true) :
    lineLE k m = true := by
  cases k <;> cases l <;> cases m <;> simp [lineLE] at h h' ⊢
  omega

theorem lineLE_total (l m : Option Nat) : lineLE l m = true ∨ lineLE m l = true := by
  cases l <;> cases m <;> simp [lineLE]
  omega

theorem lineLE_antisymm {l m : Option Nat} (h : lineLE l m = true) (h' : lineLE m l = true) :
    l = m := by
  cases l <;> cases m <;> simp [lineLE] at h h' ⊢
  omega

theorem le_iff {a b : Issue} :
    le a b = true ↔ a.file < b.file ∨ a.file = b.file ∧ lineLE a.line b.line = true := by
  simp [le]

theorem le_trans {a b c : Issue} (h : le a b = true) (h' : le b c = true) : le a c = true := by
  rw [le_iff] at h h' ⊢
  rcases h with h | ⟨hfile, hline⟩
  · rcases h' with h' | ⟨hfile', -⟩
    · exact .inl (h.trans h')
    · exact .inl (hfile' ▸ h)
  · rcases h' with h' | ⟨hfile', hline'⟩
    · exact .inl (hfile ▸ h')
    · exact .inr ⟨hfile.trans hfile', lineLE_trans hline hline'⟩

theorem le_total (a b : Issue) : le a b = true ∨ le b a = true := by
  rw [le_iff, le_iff]
  rcases lt_trichotomy a.file b.file with h | h | h
  · exact .inl (.inl h)
  · exact (lineLE_total a.line b.line).imp (fun hl => .inr ⟨h, hl⟩) fun hl => .inr ⟨h.symm, hl⟩
  · exact .inr (.inl h)

theorem le_or_le (a b : Issue) : (le a b || le b a) = true := by
  rw [Bool.or_eq_true]
  exact le_total a b

/-- Do two issues stand on one line of one file? -/
def SamePlace (a b : Issue) : Prop := a.file = b.file ∧ a.line = b.line

theorem samePlace_iff {a b : Issue} : SamePlace a b ↔ le a b = true ∧ le b a = true := by
  constructor
  · intro h
    rw [le_iff, le_iff, h.1, h.2]
    exact ⟨.inr ⟨rfl, lineLE_refl _⟩, .inr ⟨rfl, lineLE_refl _⟩⟩
  · rintro ⟨h, h'⟩
    rw [le_iff] at h h'
    rcases h with h | ⟨hfile, hline⟩
    · rcases h' with h' | ⟨hfile, -⟩
      · exact absurd h' (lt_asymm h)
      · exact absurd hfile (ne_of_gt h)
    · rcases h' with h' | ⟨-, hline'⟩
      · exact absurd hfile (ne_of_gt h')
      · exact ⟨hfile, lineLE_antisymm hline hline'⟩

/-- By the bytes of the file's name, then by line; an absent line comes first. -/
def Precedes (a b : Issue) : Prop :=
  utf8Bytes a.file < utf8Bytes b.file ∨
    a.file = b.file ∧ (a.line = none ∨ ∃ m n, a.line = some m ∧ b.line = some n ∧ m ≤ n)

theorem le_iff_precedes {a b : Issue} : le a b = true ↔ Precedes a b := by
  have hline : lineLE a.line b.line = true ↔
      a.line = none ∨ ∃ m n, a.line = some m ∧ b.line = some n ∧ m ≤ n := by
    cases a.line <;> cases b.line <;> simp [lineLE]
  rw [le_iff, Precedes, lt_iff_utf8Bytes_lt, hline]

/-- Do issues that stand on one line of one file keep their order? Each issue that is shown goes
with its position in the list it comes from. -/
def KeepsOrder (issues shown : List Issue) : Prop :=
  ∃ numbered : List (Issue × Nat), numbered.Perm issues.zipIdx ∧ numbered.map Prod.fst = shown ∧
    numbered.Pairwise fun a b => SamePlace a.1 b.1 → a.2 < b.2

/-- The same issues, put by file and line, those on one line in the order they had. -/
structure StablySorted (issues shown : List Issue) : Prop where
  perm : shown.Perm issues
  sorted : shown.Pairwise Precedes
  stable : KeepsOrder issues shown

section Numbered

variable {issues : List Issue}

theorem zipIdxLE_iff {a b : Issue × Nat} :
    List.zipIdxLE le a b = true ↔ Precedes a.1 b.1 ∧ (SamePlace a.1 b.1 → a.2 ≤ b.2) := by
  rw [List.zipIdxLE, ← le_iff_precedes, samePlace_iff]
  split_ifs <;> simp_all

theorem eq_of_zipIdxLE {a b : Issue × Nat} (ha : a ∈ issues.zipIdx) (hb : b ∈ issues.zipIdx)
    (h : List.zipIdxLE le a b = true) (h' : List.zipIdxLE le b a = true) : a = b := by
  rw [zipIdxLE_iff] at h h'
  have hplace : SamePlace a.1 b.1 :=
    samePlace_iff.2 ⟨le_iff_precedes.2 h.1, le_iff_precedes.2 h'.1⟩
  have hnumber : a.2 = b.2 :=
    Nat.le_antisymm (h.2 hplace) (h'.2 ⟨hplace.1.symm, hplace.2.symm⟩)
  rw [List.mem_zipIdx_iff_getElem?] at ha hb
  rw [hnumber, hb] at ha
  exact Prod.ext (Option.some.inj ha).symm hnumber

theorem pairwise_number_ne {numbered : List (Issue × Nat)} (h : numbered.Perm issues.zipIdx) :
    numbered.Pairwise fun a b => a.2 ≠ b.2 := by
  have hnodup : (numbered.map Prod.snd).Nodup := by
    rw [(h.map Prod.snd).nodup_iff, List.zipIdx_map_snd]
    exact List.nodup_range'
  exact List.pairwise_map.1 hnodup

end Numbered

variable (issues : List Issue)

theorem pairwise_numbered :
    (issues.zipIdx.mergeSort (List.zipIdxLE le)).Pairwise fun a b =>
      List.zipIdxLE le a b = true := by
  apply List.pairwise_mergeSort
  · apply List.zipIdxLE_trans
    intro a b c
    exact le_trans
  · exact List.zipIdxLE_total le_or_le

theorem keepsOrder_sort : KeepsOrder issues (sort issues) := by
  have hperm := List.mergeSort_perm issues.zipIdx (List.zipIdxLE le)
  refine ⟨_, hperm, List.mergeSort_zipIdx, ?_⟩
  refine ((pairwise_numbered issues).and (pairwise_number_ne hperm)).imp ?_
  intro a b h hplace
  exact lt_of_le_of_ne ((zipIdxLE_iff.1 h.1).2 hplace) h.2

theorem sort_pairwise_precedes : (sort issues).Pairwise Precedes := by
  have h : (sort issues).Pairwise fun a b => le a b = true := by
    apply List.pairwise_mergeSort
    · intro a b c
      exact le_trans
    · exact le_or_le
  exact h.imp le_iff_precedes.1

variable {issues}

/-- Nothing but sorting puts issues in order and keeps the order of those on one line. -/
theorem stablySorted_iff {shown : List Issue} :
    StablySorted issues shown ↔ shown = sort issues := by
  constructor
  · rintro ⟨-, hsorted, numbered, hperm, hshown, hstable⟩
    have hle : numbered.Pairwise fun a b => List.zipIdxLE le a b = true := by
      rw [← hshown, List.pairwise_map] at hsorted
      refine (hsorted.and hstable).imp ?_
      intro a b h
      exact zipIdxLE_iff.2 ⟨h.1, fun hplace => (h.2 hplace).le⟩
    -- Both numbered lists hold the same pairs, and an ordered list is determined by what it holds.
    have hnumbered : numbered = issues.zipIdx.mergeSort (List.zipIdxLE le) := by
      have hperm' := List.mergeSort_perm issues.zipIdx (List.zipIdxLE le)
      apply List.Perm.eq_of_pairwise _ hle (pairwise_numbered issues) (hperm.trans hperm'.symm)
      intro a b ha hb
      exact eq_of_zipIdxLE (hperm.mem_iff.1 ha) (hperm'.mem_iff.1 hb)
    rw [← hshown, hnumbered, List.mergeSort_zipIdx, sort]
  · intro h
    rw [h]
    exact ⟨List.mergeSort_perm issues le, sort_pairwise_precedes issues, keepsOrder_sort issues⟩

theorem sort_sort (issues : List Issue) : sort (sort issues) = sort issues := by
  apply List.mergeSort_of_pairwise
  exact (sort_pairwise_precedes issues).imp le_iff_precedes.2

end Issue

namespace Terminal.CommandResult

/-- The issues of a result are those that come in, put by file and line with those on one line in
the order they had. Only one list is that, and so a second time changes nothing. -/
theorem finish_stablySorted (summary : Summary) (issues : List Issue) (filesChecked : Nat) :
    let result := finish summary issues filesChecked
    (∀ shown, Issue.StablySorted issues shown ↔ shown = result.issues) ∧
      finish summary result.issues filesChecked = result := by
  intro result
  refine ⟨fun shown => Issue.stablySorted_iff, ?_⟩
  have hperm : result.issues.Perm issues := List.mergeSort_perm issues Issue.le
  have hissues : Issue.sort result.issues = result.issues := Issue.sort_sort issues
  -- The numbers do not depend on the order.
  have herrors : Listing.errorCount result.issues = Listing.errorCount issues :=
    hperm.countP_eq _
  have hwarnings : Listing.warningCount result.issues = Listing.warningCount issues :=
    hperm.countP_eq _
  have hunreadable : result.issues.countP isUnreadable = issues.countP isUnreadable :=
    hperm.countP_eq _
  rw [finish, hissues, herrors, hwarnings, hunreadable]
  rfl

-- Of three issues on one line, two are alike.
example :
    let alike : Issue := .error ⟨"t(x)", .unsupportedArgument, "a.ts", some 2⟩
    let other : Issue := .warning ⟨"c", .templateWithoutExpressions, "a.ts", some 2⟩
    let whole : Issue := .unreadable ⟨"a.ts", none, "Expression expected"⟩
    (finish (.init ⟨true, none⟩) [alike, other, alike, whole] 1).issues =
      [whole, alike, other, alike] := by
  cbv

end Terminal.CommandResult

end MessageKeys

import Mathlib.Data.Bool.Basic
import Mathlib.Data.List.TakeWhile
import MessageKeys.Terminal.Listing

namespace MessageKeys.Terminal

/-- Stretches of code points in which every character takes a column. -/
def shownRanges : List (Nat × Nat) :=
  [(0x20, 0x7E), (0xA0, 0xAC), (0xAE, 0x2FF), (0x2010, 0x2029), (0x202F, 0x205F), (0x20F1, 0x2CEE),
   (0x2CF2, 0x2DDF), (0x3030, 0x3098), (0x3165, 0xA66E), (0x1E94B, 0xDFFFF)]

/-- Does a stretch leave out control characters and characters without a width? -/
def isShownRange (range : Nat × Nat) : Bool :=
  (0xA0 ≤ range.1 || (0x20 ≤ range.1 && range.2 < 0x7F)) &&
    zeroWidthRanges.all fun zero => range.2 < zero.1 || zero.2 < range.1

theorem shownRanges_all : shownRanges.all isShownRange = true := by
  decide +kernel

section Tables

variable {table : List (Nat × Nat)} {c : Char}

theorem inTable_iff : inTable table c = true ↔ ∃ r ∈ table, r.1 ≤ c.toNat ∧ c.toNat ≤ r.2 := by
  simp [inTable, isBetween]

theorem isControl_iff :
    isControl c = true ↔ c.toNat < 0x20 ∨ (0x7F ≤ c.toNat ∧ c.toNat < 0xA0) := by
  simp [isControl]

theorem charWidth_pos (h : inTable shownRanges c = true) : 1 ≤ charWidth c := by
  obtain ⟨range, hmem, hlo, hhi⟩ := inTable_iff.1 h
  have hshown := List.all_eq_true.1 shownRanges_all range hmem
  unfold isShownRange at hshown
  rw [Bool.and_eq_true, List.all_eq_true] at hshown
  obtain ⟨hrange, hzero⟩ := hshown
  rw [Bool.or_eq_true, Bool.and_eq_true, decide_eq_true_eq, decide_eq_true_eq,
    decide_eq_true_eq] at hrange
  have hcontrol : isControl c = false := by
    rw [Bool.eq_false_iff, ne_eq, isControl_iff]
    omega
  have htable : inTable zeroWidthRanges c = false := by
    rw [Bool.eq_false_iff, ne_eq, inTable_iff]
    rintro ⟨zero, hmem, hle, hge⟩
    have hapart := hzero zero hmem
    rw [Bool.or_eq_true, decide_eq_true_eq, decide_eq_true_eq] at hapart
    omega
  unfold charWidth charWidth?
  rw [hcontrol, htable]
  split_ifs <;> simp_all

theorem charWidth_pos_of_inTable
    (h : (table.all fun r => shownRanges.any fun s => s.1 ≤ r.1 && r.2 ≤ s.2) = true)
    (hc : inTable table c = true) : 1 ≤ charWidth c := by
  obtain ⟨range, hmem, hlo, hhi⟩ := inTable_iff.1 hc
  obtain ⟨stretch, hstretch, hinside⟩ := List.any_eq_true.1 (List.all_eq_true.1 h range hmem)
  rw [Bool.and_eq_true, decide_eq_true_eq, decide_eq_true_eq] at hinside
  apply charWidth_pos
  exact inTable_iff.2 ⟨stretch, hstretch, by omega, by omega⟩

theorem charWidth_pos_of_isPicture (h : isPicture c = true) : 1 ≤ charWidth c :=
  charWidth_pos_of_inTable (by decide +kernel) h

theorem charWidth_pos_of_startsPicture (h : startsPicture c = true) : 1 ≤ charWidth c := by
  rcases (Bool.or_eq_true _ _).mp h with h | h
  · exact charWidth_pos_of_inTable (by decide +kernel) h
  · exact charWidth_pos_of_isPicture h

theorem charWidth_pos_of_isBetween (lo hi : Nat)
    (h : (shownRanges.any fun s => s.1 ≤ lo && hi ≤ s.2) = true)
    (hc : isBetween lo hi c = true) : 1 ≤ charWidth c := by
  have hin : inTable [(lo, hi)] c = true := by simpa [inTable] using hc
  exact charWidth_pos_of_inTable (by simpa using h) hin

theorem charWidth_pos_of_isIndicator (h : isIndicator c = true) : 1 ≤ charWidth c :=
  charWidth_pos_of_isBetween _ _ (by decide +kernel) h

end Tables

/-- Does a character take a column more in a string than by itself? -/
def isWidened (c : Char) (next : Option Char) : Bool :=
  isControl c || (startsPicture c && charWidth c == 1 && next == some pictureSelector)

/-- The columns by which a string is narrower than its characters, as long as the next character can
still take them back: the letters of joined flags do. -/
def Joint.reserve : Joint → Int
  | evenIndicators => 2
  | _ => 0

theorem Joint.reserve_nonneg (joint : Joint) : 0 ≤ joint.reserve := by
  cases joint <;> simp [reserve]

section Step

variable {joint joint' : Joint} {c : Char} {width : Int}

theorem Ligature.join?_le {ending : Ligature} {joined : Bool}
    (h : ending.join? joined c = some (width, joint')) :
    width + joint'.reserve ≤ charWidth c := by
  have htie (hc : c = '\u2D7F') : 1 ≤ charWidth c := by
    apply charWidth_pos_of_isBetween 0x2D7F 0x2D7F (by decide +kernel)
    rw [hc]
    decide
  cases ending <;> simp only [join?] at h <;> split_ifs at h <;>
    obtain ⟨rfl, rfl⟩ := Prod.mk.inj (Option.some.inj h) <;> simp only [Joint.reserve] <;> grind

theorem Joint.join?_le (h : joint.join? c = some (width, joint')) :
    width + joint'.reserve ≤ charWidth c + joint.reserve := by
  -- Only the letters of joined flags add more than their width, and what is held back pays for it.
  have hindicator (hc : isIndicator c = true) : 1 ≤ charWidth c := charWidth_pos_of_isIndicator hc
  cases joint with
  | none | lineFeed | keycap => cases h
  | ligature ending joined =>
    simp only [join?] at h
    split_ifs at h
    · obtain ⟨rfl, rfl⟩ := Prod.mk.inj (Option.some.inj h)
      simp only [reserve]
      omega
    · obtain ⟨rfl, rfl⟩ := Prod.mk.inj (Option.some.inj h)
      simp only [reserve]
      omega
    · simpa [reserve] using Ligature.join?_le h
  | _ =>
    simp only [join?] at h
    split_ifs at h <;> obtain ⟨rfl, rfl⟩ := Prod.mk.inj (Option.some.inj h) <;>
      simp only [reserve] <;> grind

theorem reserve_ofChar (c : Char) : (Joint.ofChar c).reserve = 0 := by
  simp only [Joint.ofChar, apply_ite Joint.reserve]
  simp only [Joint.reserve, ite_self]

theorem low_width_pos (h : c.toNat ≤ 0xA0) : 1 ≤ charWidth c + (isControl c).toNat := by
  by_cases hc : isControl c = true
  · rw [hc, Bool.toNat_true]
    exact Nat.le_add_left _ _
  · apply Nat.le_add_right_of_le
    apply charWidth_pos
    rw [inTable_iff]
    rw [isControl_iff] at hc
    by_cases hascii : c.toNat < 0x7F
    · exact ⟨(0x20, 0x7E), by decide, by omega, by omega⟩
    · exact ⟨(0xA0, 0xAC), by decide, by omega, by omega⟩

theorem plainWidth_le (joint : Joint) (c : Char) :
    (plainWidth joint c).1 + (plainWidth joint c).2.joint.reserve ≤
      charWidth c + joint.reserve + (isControl c).toNat := by
  have hreserve := joint.reserve_nonneg
  have hkept (kept : Bool) : (if kept then joint else .none).reserve ≤ joint.reserve := by
    cases kept
    · exact hreserve
    · exact Int.le_refl _
  unfold plainWidth
  by_cases hlow : c.toNat ≤ 0xA0
  · rw [if_pos hlow]
    have hwidth := low_width_pos hlow
    have hnone : Joint.none.reserve = 0 := rfl
    have hfeed : Joint.lineFeed.reserve = 0 := rfl
    split_ifs <;> dsimp only <;> omega
  rw [if_neg hlow]
  by_cases hpicture : c = pictureSelector
  · rw [if_pos hpicture]
    have := hkept joint.takesSelector
    dsimp only
    omega
  rw [if_neg hpicture]
  by_cases htext : c = textSelector
  · rw [if_pos htext]
    have := hkept joint.outlastsSelector
    dsimp only
    omega
  rw [if_neg htext]
  cases hjoin : joint.join? c with
  | none =>
    have := reserve_ofChar c
    dsimp only
    omega
  | some result =>
    obtain ⟨width, joint'⟩ := result
    have := Joint.join?_le hjoin
    dsimp only
    omega

/-- What a character adds to a string is at most its own width, and a column if it is widened. -/
theorem addedWidth_le (following : Following) (c : Char) (next : Option Char)
    (hnext : following.selector = some .picture → next = some pictureSelector) :
    (addedWidth following c).1 + (addedWidth following c).2.joint.reserve ≤
      charWidth c + following.joint.reserve + (isWidened c next).toNat := by
  have hreserve := following.joint.reserve_nonneg
  have hplain (joint : Joint) (hjoint : joint.reserve ≤ following.joint.reserve) :
      (plainWidth joint c).1 + (plainWidth joint c).2.joint.reserve ≤
        charWidth c + following.joint.reserve + (isWidened c next).toNat := by
    have hwidth := plainWidth_le joint c
    have hcontrol : (isControl c).toNat ≤ (isWidened c next).toNat := by
      apply Bool.toNat_le_toNat
      intro hc
      simp [isWidened, hc]
    omega
  have hkept :
      (if following.joint.outlastsSelector then following.joint else .none).reserve ≤
        following.joint.reserve := by
    split_ifs
    · exact Int.le_refl _
    · exact hreserve
  unfold addedWidth
  cases hselector : following.selector with
  | none => exact hplain _ (Int.le_refl _)
  | some selector =>
    cases selector with
    | picture =>
      dsimp only
      by_cases hstarts : startsPicture c = true
      · rw [if_pos hstarts]
        have hpos := charWidth_pos_of_startsPicture hstarts
        -- A picture is two columns wide, and an emoji by itself may have one of them only.
        have hwide : 2 ≤ charWidth c + (isWidened c next).toNat := by
          by_cases hone : charWidth c = 1
          · simp [isWidened, hstarts, hone, hnext hselector]
          · omega
        have hpicture : Joint.picture.reserve = 0 := rfl
        split_ifs <;> dsimp only <;> omega
      · rw [if_neg hstarts]
        exact hplain _ hkept
    | text =>
      dsimp only
      by_cases hstarts : startsText c = true
      · rw [if_pos hstarts]
        have hpos := charWidth_pos_of_isPicture (Bool.and_eq_true_iff.1 hstarts).1
        have hnone : Joint.none.reserve = 0 := rfl
        dsimp only
        omega
      · rw [if_neg hstarts]
        exact hplain _ hkept

theorem plainWidth_selector (h : (plainWidth joint c).2.selector = some .picture) :
    c = pictureSelector := by
  unfold plainWidth at h
  grind

theorem addedWidth_selector {following : Following}
    (h : (addedWidth following c).2.selector = some .picture) : c = pictureSelector := by
  unfold addedWidth at h
  cases hselector : following.selector with
  | none =>
    rw [hselector] at h
    exact plainWidth_selector h
  | some selector =>
    rw [hselector] at h
    cases selector with
    | picture | text =>
      dsimp only at h
      split at h
      · cases h
      · exact plainWidth_selector h

end Step

/-- The widths of the characters of a string added up. -/
def totalWidth : List Char → Nat
  | [] => 0
  | c :: cs => charWidth c + totalWidth cs

/-- How many characters of a string take a column more in it than by themselves. -/
def widenedCount : List Char → Nat
  | [] => 0
  | c :: cs => (isWidened c cs.head?).toNat + widenedCount cs

section Strings

variable {cs : List Char}

theorem measure_selector (h : (measure cs).2.selector = some .picture) :
    cs.head? = some pictureSelector := by
  cases cs with
  | nil => cases h
  | cons c cs =>
    have hc : c = pictureSelector := addedWidth_selector h
    rw [hc, List.head?_cons]

theorem measure_cons (c : Char) (cs : List Char) :
    measure (c :: cs) =
      ((measure cs).1 + (addedWidth (measure cs).2 c).1, (addedWidth (measure cs).2 c).2) := rfl

theorem measure_le (cs : List Char) :
    (measure cs).1 + (measure cs).2.joint.reserve ≤ totalWidth cs + widenedCount cs := by
  induction cs with
  | nil => decide
  | cons c cs ih =>
    have hadded := addedWidth_le (measure cs).2 c cs.head? measure_selector
    simp only [measure_cons, totalWidth, widenedCount]
    omega

theorem stringWidth_le (cs : List Char) :
    stringWidth cs ≤ totalWidth cs + widenedCount cs := by
  have hmeasure := measure_le cs
  have hreserve := (measure cs).2.joint.reserve_nonneg
  unfold stringWidth
  omega

theorem totalWidth_append (cs ds : List Char) :
    totalWidth (cs ++ ds) = totalWidth cs + totalWidth ds := by
  induction cs with
  | nil => exact (Nat.zero_add _).symm
  | cons c cs ih => rw [List.cons_append, totalWidth, totalWidth, ih, Nat.add_assoc]

theorem totalWidth_replicate (c : Char) (n : Nat) :
    totalWidth (List.replicate n c) = n * charWidth c := by
  induction n with
  | zero => exact (Nat.zero_mul _).symm
  | succ n ih => rw [List.replicate_succ, totalWidth, ih, Nat.succ_mul, Nat.add_comm]

theorem widenedCount_eq_zero (h : ∀ c ∈ cs, isControl c = false ∧ c ≠ pictureSelector) :
    widenedCount cs = 0 := by
  induction cs with
  | nil => rfl
  | cons c cs ih =>
    rw [List.forall_mem_cons] at h
    obtain ⟨⟨hcontrol, -⟩, hrest⟩ := h
    have hnext : cs.head? ≠ some pictureSelector := by
      intro hhead
      exact (hrest _ (List.mem_of_head? hhead)).2 rfl
    have hc : isWidened c cs.head? = false := by
      simp [isWidened, hcontrol, hnext]
    rw [widenedCount, hc, ih hrest, Bool.toNat_false]

theorem fitting_width (room : Nat) (cs : List Char) :
    totalWidth (fitting room cs) ≤ room := by
  induction cs generalizing room with
  | nil => exact Nat.zero_le _
  | cons c cs ih =>
    have hrest := ih (room - charWidth c)
    rw [fitting]
    split_ifs
    · rw [totalWidth]
      omega
    · exact Nat.zero_le _

theorem fitting_begins (room : Nat) (cs : List Char) : fitting room cs <+: cs := by
  induction cs generalizing room with
  | nil => exact List.prefix_rfl
  | cons c cs ih =>
    unfold fitting
    split_ifs
    · exact (List.prefix_cons_inj c).2 (ih _)
    · exact List.nil_prefix

end Strings

/-- A headline is the first line if it fits, and else a beginning of it and an ellipsis. -/
theorem headlineChars_eq (cs : List Char) :
    (headlineChars cs = firstLine cs ∧ stringWidth (firstLine cs) ≤ maxHeadlineWidth) ∨
      headlineChars cs = fitting (maxHeadlineWidth - 1) (firstLine cs) ++ ['…'] := by
  unfold headlineChars
  by_cases hfits : (!hasSecondLine cs && stringWidth (firstLine cs) ≤ maxHeadlineWidth) = true
  · refine .inl ⟨if_pos hfits, ?_⟩
    exact of_decide_eq_true (Bool.and_eq_true_iff.1 hfits).2
  · exact .inr (if_neg hfits)

theorem mem_headlineChars {cs : List Char} {c : Char} (h : c ∈ headlineChars cs) :
    c ∈ firstLine cs ∨ c = '…' := by
  rcases headlineChars_eq cs with ⟨hline, -⟩ | hcut
  · rw [hline] at h
    exact .inl h
  · rw [hcut, List.mem_append, List.mem_singleton] at h
    exact h.imp_left fun hkept => (fitting_begins _ _).subset hkept

theorem charWidth_ellipsis : charWidth '…' = 1 := by
  decide +kernel

theorem headlineChars_width_le (cs : List Char) :
    stringWidth (headlineChars cs) ≤ maxHeadlineWidth + widenedCount (headlineChars cs) := by
  rcases headlineChars_eq cs with ⟨hline, hfits⟩ | hcut
  · rw [hline]
    exact Nat.le_add_right_of_le hfits
  · have hwidth := stringWidth_le (headlineChars cs)
    have hfitting := fitting_width (maxHeadlineWidth - 1) (firstLine cs)
    -- What is kept leaves a column for the ellipsis.
    have hsum : totalWidth (headlineChars cs) ≤ maxHeadlineWidth := by
      rw [hcut, totalWidth_append, totalWidth, totalWidth, charWidth_ellipsis]
      exact Nat.add_le_of_le_sub (by decide) hfitting
    omega

section Crowded

variable {c : Char}

theorem addedWidth_low {following : Following} (hselector : following.selector = none)
    (hlow : c.toNat ≤ 0xA0) (hfeed : c ≠ '\n') (hreturn : c ≠ '\r') :
    addedWidth following c = (1, {}) := by
  unfold addedWidth
  rw [hselector]
  simp [plainWidth, hlow, hfeed, hreturn]

theorem measure_replicate (hlow : c.toNat ≤ 0xA0) (hfeed : c ≠ '\n') (hreturn : c ≠ '\r')
    {rest : List Char} (hrest : (measure rest).2.selector = none) (n : Nat) :
    (measure (List.replicate n c ++ rest)).1 = n + (measure rest).1 ∧
      (measure (List.replicate n c ++ rest)).2.selector = none := by
  induction n with
  | zero => exact ⟨(Int.zero_add _).symm, hrest⟩
  | succ n ih =>
    obtain ⟨hwidth, hselector⟩ := ih
    rw [List.replicate_succ, List.cons_append, measure_cons,
      addedWidth_low hselector hlow hfeed hreturn]
    refine ⟨?_, rfl⟩
    dsimp only
    omega

theorem widenedCount_replicate {widened : Bool} (h : ∀ next, isWidened c next = widened)
    (rest : List Char) (n : Nat) :
    widenedCount (List.replicate n c ++ rest) = n * widened.toNat + widenedCount rest := by
  induction n with
  | zero => simp
  | succ n ih =>
    rw [List.replicate_succ, List.cons_append, widenedCount, ih, h, Nat.succ_mul]
    omega

def crowdedLine (tabs : Nat) : List Char :=
  List.replicate (maxHeadlineWidth - 1) 'a' ++ List.replicate tabs '\t'

theorem measure_crowdedLine (tabs : Nat) (rest : List Char)
    (hrest : (measure rest).2.selector = none) :
    (measure (crowdedLine tabs ++ rest)).1 = 71 + tabs + (measure rest).1 := by
  have htabs := measure_replicate (c := '\t') (by decide) (by decide) (by decide) hrest tabs
  have hletters := measure_replicate (c := 'a') (by decide) (by decide) (by decide) htabs.2 71
  rw [crowdedLine, List.append_assoc, Int.add_assoc, ← htabs.1]
  exact hletters.1

theorem widenedCount_crowdedLine (tabs : Nat) (rest : List Char) :
    widenedCount (crowdedLine tabs ++ rest) = tabs + widenedCount rest := by
  have hletter (next : Option Char) : isWidened 'a' next = false := by
    have hstarts : startsPicture 'a' = false := by decide +kernel
    simp [isWidened, hstarts, isControl]
  have htab (next : Option Char) : isWidened '\t' next = true := by
    simp [isWidened, isControl]
  rw [crowdedLine, List.append_assoc, widenedCount_replicate hletter, widenedCount_replicate htab]
  simp

theorem fitting_append {room : Nat} {cs : List Char} (h : totalWidth cs ≤ room)
    (rest : List Char) :
    fitting room (cs ++ rest) = cs ++ fitting (room - totalWidth cs) rest := by
  induction cs generalizing room with
  | nil => rfl
  | cons c cs ih =>
    rw [totalWidth] at h
    rw [List.cons_append, fitting, if_pos (by omega), ih (by omega), totalWidth, Nat.sub_add_eq,
      List.cons_append]

theorem firstLine_crowdedLine (tabs : Nat) :
    firstLine (crowdedLine tabs ++ ['b', 'b']) = crowdedLine tabs ++ ['b', 'b'] := by
  have hline : (crowdedLine tabs ++ ['b', 'b']).takeWhile (· != '\n') =
      crowdedLine tabs ++ ['b', 'b'] := by
    rw [List.takeWhile_eq_self_iff]
    intro c hc
    simp only [crowdedLine, List.mem_append, List.mem_replicate] at hc
    grind
  have hblank : Text.isBlank 'b' = false := by decide
  rw [firstLine, hline, Text.trimEnd, Text.trimStart]
  simp [hblank]

theorem headlineChars_crowdedLine (tabs : Nat) :
    headlineChars (crowdedLine tabs ++ ['b', 'b']) = crowdedLine tabs ++ ['…'] := by
  have hwide : ¬stringWidth (crowdedLine tabs ++ ['b', 'b']) ≤ maxHeadlineWidth := by
    have hmeasure := measure_crowdedLine tabs ['b', 'b'] (by decide)
    have hrest : (measure ['b', 'b']).1 = 2 := by decide
    unfold stringWidth maxHeadlineWidth
    omega
  have hsum : totalWidth (crowdedLine tabs) = maxHeadlineWidth - 1 := by
    have hletter : charWidth 'a' = 1 := by decide
    have htab : charWidth '\t' = 0 := by decide
    rw [crowdedLine, totalWidth_append, totalWidth_replicate, totalWidth_replicate, hletter, htab,
      Nat.mul_one, Nat.mul_zero, Nat.add_zero]
  have hfull : fitting 0 ['b', 'b'] = [] := by decide
  rcases headlineChars_eq (crowdedLine tabs ++ ['b', 'b']) with ⟨-, hfits⟩ | hcut
  · rw [firstLine_crowdedLine] at hfits
    exact absurd hfits hwide
  · rw [hcut, firstLine_crowdedLine, fitting_append (Nat.le_of_eq hsum), hsum, Nat.sub_self, hfull,
      List.append_nil]

theorem exists_headline_width (widened : Nat) :
    ∃ message, widenedCount (headline message).toList = widened ∧
      stringWidth (headline message).toList = maxHeadlineWidth + widened := by
  refine ⟨String.ofList (crowdedLine widened ++ ['b', 'b']), ?_⟩
  rw [headline, String.toList_ofList, String.toList_ofList, headlineChars_crowdedLine]
  have hwidth := measure_crowdedLine widened ['…'] (by decide +kernel)
  have hellipsis : (measure ['…']).1 = 1 := by decide +kernel
  have hcount : widenedCount ['…'] = 0 := by decide +kernel
  constructor
  · rw [widenedCount_crowdedLine, hcount, Nat.add_zero]
  · unfold stringWidth maxHeadlineWidth
    omega

end Crowded

/-- A headline exceeds the greatest width by at most one column for each of its widened characters,
so not at all if the message has no control characters and no selectors on its first line. Whatever
the number of widened characters is, some headline exceeds it by as much. -/
theorem headline_width_bound (message : String) :
    stringWidth (headline message).toList ≤
        maxHeadlineWidth + widenedCount (headline message).toList ∧
      ((∀ c ∈ firstLine message.toList, isControl c = false ∧ c ≠ pictureSelector) →
        stringWidth (headline message).toList ≤ maxHeadlineWidth) ∧
      ∀ widened, ∃ crowded, widenedCount (headline crowded).toList = widened ∧
        stringWidth (headline crowded).toList = maxHeadlineWidth + widened := by
  have hbound := headlineChars_width_le message.toList
  rw [headline, String.toList_ofList]
  refine ⟨hbound, ?_, exists_headline_width⟩
  intro hplain
  have hzero : widenedCount (headlineChars message.toList) = 0 := by
    apply widenedCount_eq_zero
    intro c hc
    rcases mem_headlineChars hc with hfirst | rfl
    · exact hplain c hfirst
    · decide
  rwa [hzero, Nat.add_zero] at hbound

/-- Tabs between two letters make a headline too wide. -/
theorem not_headline_width_tabs :
    ¬stringWidth (headline (String.ofList ('a' :: List.replicate 80 '\t' ++ ['b']))).toList ≤
      maxHeadlineWidth := by
  decide +kernel

end MessageKeys.Terminal

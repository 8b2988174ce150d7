import Mathlib.Data.List.Basic
import MessageKeys.Proofs.HeadlineWidth
import MessageKeys.Terminal.Summary

namespace MessageKeys.Terminal

def escapeChar : Char := '\x1b'

/-- Takes out what stands from an escape character through the next `m`; `inside` says whether such
a sequence has begun. -/
def stripFrom (inside : Bool) : List Char → List Char
  | [] => []
  | c :: cs =>
    if inside then stripFrom (c != 'm') cs
    else if c = escapeChar then stripFrom true cs
    else c :: stripFrom false cs

def stripEscapes (s : String) : String := String.ofList (stripFrom false s.toList)

def IsUnescaped (s : String) : Prop := escapeChar ∉ s.toList

instance (s : String) : Decidable (IsUnescaped s) :=
  inferInstanceAs (Decidable (escapeChar ∉ s.toList))

theorem stripFrom_append_of_notMem {cs : List Char} (h : escapeChar ∉ cs) (rest : List Char) :
    stripFrom false (cs ++ rest) = cs ++ stripFrom false rest := by
  induction cs with
  | nil => rfl
  | cons c cs ih =>
    rw [List.mem_cons, not_or] at h
    simp [stripFrom, Ne.symm h.1, ih h.2]

theorem stripFrom_inside {cs : List Char} (h : 'm' ∉ cs) (rest : List Char) :
    stripFrom true (cs ++ 'm' :: rest) = stripFrom false rest := by
  induction cs with
  | nil => simp [stripFrom]
  | cons c cs ih =>
    rw [List.mem_cons, not_or] at h
    have hc : (c != 'm') = true := bne_iff_ne.2 (Ne.symm h.1)
    simp [stripFrom, hc, ih h.2]

theorem Style.isDigit_of_mem_code {s : Style} {c : Char} (h : c ∈ s.code.toList) :
    c.isDigit = true := by
  have hdigits : s.code.toList.all Char.isDigit = true := by
    cases s <;> decide
  exact List.all_eq_true.1 hdigits c h

theorem mem_codes {styles : List Style} {c : Char}
    (h : c ∈ (";".intercalate (styles.map Style.code)).toList) : c.isDigit = true ∨ c = ';' := by
  induction styles with
  | nil => cases h
  | cons s styles ih =>
    cases styles with
    | nil => exact .inl (s.isDigit_of_mem_code (by simpa using h))
    | cons t styles =>
      rw [List.map_cons] at ih
      rw [List.map_cons, List.map_cons, String.intercalate_cons_cons, String.toList_append,
        String.toList_append, List.mem_append, List.mem_append] at h
      rcases h with (hcode | hmark) | hrest
      · exact .inl (s.isDigit_of_mem_code hcode)
      · exact .inr (List.mem_singleton.1 hmark)
      · exact ih hrest

namespace Piece

theorem stripFrom_render {p : Piece} (h : IsUnescaped p.text) (rest : List Char) :
    stripFrom false ((p.render true).toList ++ rest) = p.text.toList ++ stripFrom false rest := by
  unfold render
  split_ifs with hstyled
  · have hbegin (cs : List Char) :
        stripFrom false ("\x1b[".toList ++ cs) = stripFrom true ('[' :: cs) := rfl
    have hend (cs : List Char) :
        stripFrom false ("\x1b[0m".toList ++ cs) = stripFrom false cs := rfl
    have hcodes : 'm' ∉ '[' :: (";".intercalate (p.styles.map Style.code)).toList := by
      rw [List.mem_cons, not_or]
      exact ⟨by decide, fun h => absurd (mem_codes h) (by decide)⟩
    calc stripFrom false (("\x1b[" ++ ";".intercalate (p.styles.map Style.code) ++ "m" ++ p.text ++
          "\x1b[0m").toList ++ rest)
        = stripFrom true (('[' :: (";".intercalate (p.styles.map Style.code)).toList) ++
            'm' :: (p.text.toList ++ ("\x1b[0m".toList ++ rest))) := by
          simp only [String.toList_append, List.append_assoc, hbegin]
          rfl
      _ = stripFrom false (p.text.toList ++ ("\x1b[0m".toList ++ rest)) :=
          stripFrom_inside hcodes _
      _ = p.text.toList ++ stripFrom false rest := by
          rw [stripFrom_append_of_notMem h, hend]
  · exact stripFrom_append_of_notMem h rest

theorem render_false (p : Piece) : p.render false = p.text := rfl

end Piece

/-- No piece of a text has an escape character. -/
def Styled.IsUnescaped (s : Styled) : Prop := ∀ p ∈ s, Terminal.IsUnescaped p.text

theorem Styled.stripEscapes_render {s : Styled} (h : s.IsUnescaped) :
    stripEscapes (s.render true) = s.render false := by
  have hchars : stripFrom false (s.render true).toList = (s.render false).toList := by
    unfold Styled.render
    rw [String.toList_join, String.toList_join, List.flatMap_map, List.flatMap_map]
    induction s with
    | nil => rfl
    | cons p s ih =>
      rw [Styled.IsUnescaped, List.forall_mem_cons] at h
      rw [List.flatMap_cons, List.flatMap_cons, Piece.stripFrom_render h.1, ih h.2,
        Piece.render_false]
  rw [stripEscapes, hchars, String.ofList_toList]

theorem Styled.isUnescaped_render_false {s : Styled} (h : s.IsUnescaped) :
    Terminal.IsUnescaped (s.render false) := by
  intro hmem
  unfold Styled.render at hmem
  rw [String.toList_join, List.flatMap_map] at hmem
  obtain ⟨p, hp, hc⟩ := List.mem_flatMap.1 hmem
  exact h p hp hc

theorem Styled.escapeChar_mem_render_true {s : Styled} {p : Piece} (hp : p ∈ s)
    (hstyled : p.styles ≠ []) : escapeChar ∈ (s.render true).toList := by
  have hpiece : escapeChar ∈ (p.render true).toList := by
    simp [Piece.render, hstyled, escapeChar]
  unfold Styled.render
  rw [String.toList_join, List.flatMap_map]
  exact List.mem_flatMap.2 ⟨p, hp, hpiece⟩

section Control

variable {c : Char} (hc : isControl c = true)
include hc

theorem notMem_of_shown {s : String} (h : s.toList.all (!isControl ·) = true) : c ∉ s.toList := by
  intro hmem
  have hshown := List.all_eq_true.1 h c hmem
  simp [hc] at hshown

theorem notMem_repr (n : Nat) : c ∉ n.repr.toList := by
  intro h
  rw [Nat.toList_repr] at h
  have hdigit := Nat.isDigit_of_mem_toDigits (by decide) (by decide) h
  have hlow : 48 ≤ c.toNat ∧ c.toNat ≤ 57 := by
    simpa [Char.isDigit, UInt32.le_iff_toNat_le] using hdigit
  have hcontrol := isControl_iff.1 hc
  omega

theorem notMem_ruleName (r : Rule) : c ∉ r.name.toList :=
  notMem_of_shown hc (by cases r <;> decide)

theorem notMem_details {i : Issue} {details : String} (h : i.details = some details) :
    c ∉ details.toList := by
  have hreason (r : Reason) : c ∉ r.message.toList :=
    notMem_of_shown hc (by cases r <;> decide)
  cases i with
  | warning r | error r =>
    obtain rfl : r.reason.message = details := Option.some.inj h
    exact hreason r.reason
  | unreadable f => cases h

theorem Listing.notMem_severity (s : Severity) : c ∉ (severity s).text.toList :=
  notMem_of_shown hc (by cases s <;> decide)

theorem Listing.notMem_place {file : String} (h : c ∉ file.toList) (line : Option Nat) :
    c ∉ (place file line).toList := by
  cases line with
  | none => exact h
  | some n =>
    have hcolon : c ∉ ":".toList := notMem_of_shown hc (by decide)
    have hrepr := notMem_repr hc n
    simp only [place, String.toList_append, List.mem_append, not_or]
    exact ⟨⟨h, hcolon⟩, hrepr⟩

end Control

theorem isControl_escapeChar : isControl escapeChar = true := by decide

@[simp] theorem isUnescaped_append {s t : String} :
    IsUnescaped (s ++ t) ↔ IsUnescaped s ∧ IsUnescaped t := by
  unfold IsUnescaped
  rw [String.toList_append, List.mem_append, not_or]

@[simp] theorem isUnescaped_toString {s : String} :
    IsUnescaped (toString s) ↔ IsUnescaped s := Iff.rfl

@[simp] theorem isUnescaped_repr (n : Nat) : IsUnescaped n.repr :=
  notMem_repr isControl_escapeChar n

theorem isUnescaped_noun (n : Nat) (word : String) (h : IsUnescaped word) :
    IsUnescaped (noun n word) := by
  unfold noun
  split_ifs
  · exact h
  · exact isUnescaped_append.2 ⟨h, by decide⟩

theorem trimEnd_sublist (cs : List Char) : (Text.trimEnd cs).Sublist cs := by
  unfold Text.trimEnd Text.trimStart
  rw [← List.reverse_sublist, List.reverse_reverse]
  exact List.dropWhile_sublist _

theorem firstLine_sublist (cs : List Char) : (firstLine cs).Sublist cs :=
  (trimEnd_sublist _).trans (List.takeWhile_sublist _)

theorem isUnescaped_headline {message : String} (h : IsUnescaped message) :
    IsUnescaped (headline message) := by
  intro hmem
  rw [headline, String.toList_ofList] at hmem
  rcases mem_headlineChars hmem with hfirst | hellipsis
  · exact h ((firstLine_sublist _).subset hfirst)
  · exact absurd hellipsis (by decide)

theorem Styled.IsUnescaped.append {s t : Styled} (hs : s.IsUnescaped) (ht : t.IsUnescaped) :
    (s ++ t).IsUnescaped := by
  intro p hp
  rcases List.mem_append.1 hp with h | h
  · exact hs p h
  · exact ht p h

@[simp] theorem isUnescaped_ruleName (r : Rule) : IsUnescaped r.name :=
  notMem_ruleName isControl_escapeChar r

namespace Listing

@[simp] theorem isUnescaped_severity (s : Severity) : IsUnescaped (severity s).text :=
  notMem_severity isControl_escapeChar s

theorem isUnescaped_issue {i : Issue} (hmessage : IsUnescaped i.message)
    (hfile : IsUnescaped i.file) : (issue i).IsUnescaped := by
  have hheadline := isUnescaped_headline hmessage
  have hplace : IsUnescaped (place i.file i.line) := notMem_place isControl_escapeChar hfile i.line
  cases hdetails : i.details with
  | none => simp +decide [issue, Styled.IsUnescaped, Piece.plain, hdetails, hheadline, hplace]
  | some details =>
    have hnote : IsUnescaped details := notMem_details isControl_escapeChar hdetails
    simp +decide [issue, Styled.IsUnescaped, Piece.plain, hdetails, hheadline, hplace, hnote]

theorem isUnescaped_totals (is : List Issue) : (totals is).IsUnescaped := by
  have herrors := isUnescaped_noun (errorCount is) "error" (by decide)
  have hwarnings := isUnescaped_noun (warningCount is) "warning" (by decide)
  simp +decide [totals, Styled.IsUnescaped, Piece.plain, herrors, hwarnings]

theorem isUnescaped_issues {is : List Issue} (hmessages : ∀ i ∈ is, IsUnescaped i.message)
    (hfiles : ∀ i ∈ is, IsUnescaped i.file) : (issues is).IsUnescaped := by
  unfold issues
  split_ifs
  · intro p hp
    cases hp
  · apply Styled.IsUnescaped.append _ (isUnescaped_totals is)
    intro p hp
    obtain ⟨i, hi, hp⟩ := List.mem_flatMap.1 hp
    exact isUnescaped_issue (hmessages i hi) (hfiles i hi) p hp

end Listing

namespace ExtractSummary

variable {s : ExtractSummary}

theorem isUnescaped_headlineText (filesChecked : Nat) :
    IsUnescaped (s.headlineText filesChecked) := by
  have hkeys := isUnescaped_noun s.keyCount "key" (by decide)
  have hfiles := isUnescaped_noun filesChecked "file" (by decide)
  unfold headlineText
  cases s.existingKeyCount <;> simp +decide [hkeys, hfiles]

theorem isUnescaped_filesLines (houtput : IsUnescaped s.outputDir)
    (hwritten : ∀ path ∈ s.written, IsUnescaped path) (verbose : Bool) :
    (s.filesLines verbose).IsUnescaped := by
  unfold filesLines
  split_ifs <;> simp +decide [Styled.IsUnescaped, Piece.plain, houtput]
  exact hwritten

theorem isUnescaped_render (houtput : IsUnescaped s.outputDir)
    (hwritten : ∀ path ∈ s.written, IsUnescaped path) (filesChecked : Nat) (verbose : Bool) :
    (s.render filesChecked verbose).IsUnescaped := by
  apply Styled.IsUnescaped.append _ (isUnescaped_filesLines houtput hwritten verbose)
  simp +decide [Styled.IsUnescaped, Piece.plain, isUnescaped_headlineText]

end ExtractSummary

/-- What an extraction prints in colours has escape characters, and taking out what stands from each
of them through the next `m` leaves what it prints without colours. -/
theorem stripEscapes_render_extract (issues : List Issue) (summary : ExtractSummary)
    (filesChecked : Nat) (verbose : Bool) (hmessages : ∀ i ∈ issues, IsUnescaped i.message)
    (hfiles : ∀ i ∈ issues, IsUnescaped i.file) (houtput : IsUnescaped summary.outputDir)
    (hwritten : ∀ path ∈ summary.written, IsUnescaped path) :
    let shown := Listing.issues issues ++ summary.render filesChecked verbose
    stripEscapes (shown.render true) = shown.render false ∧
      IsUnescaped (shown.render false) ∧ ¬IsUnescaped (shown.render true) := by
  intro shown
  have hshown : shown.IsUnescaped :=
    (Listing.isUnescaped_issues hmessages hfiles).append
      (ExtractSummary.isUnescaped_render houtput hwritten filesChecked verbose)
  have hmark : ⟨[.green], successMark⟩ ∈ shown := by
    simp [shown, ExtractSummary.render]
  refine ⟨Styled.stripEscapes_render hshown, Styled.isUnescaped_render_false hshown, ?_⟩
  intro h
  exact h (Styled.escapeChar_mem_render_true hmark (by decide))

/-- Texts that look like the end of a sequence are left as they are. -/
theorem stripEscapes_render_extract_bracketed :
    let shown := Listing.issues [.error ⟨"[1m你m", .unsupportedArgument, "[m]/m.ts", some 3⟩] ++
      ExtractSummary.render ⟨0, 0, some 0, "0m", ["0m/keys.json"], false⟩ 1 true
    stripEscapes (shown.render true) = shown.render false :=
  (stripEscapes_render_extract [.error ⟨"[1m你m", .unsupportedArgument, "[m]/m.ts", some 3⟩]
    ⟨0, 0, some 0, "0m", ["0m/keys.json"], false⟩ 1 true (by decide) (by decide) (by decide)
    (by decide)).1

end MessageKeys.Terminal

import MessageKeys.Proofs.Colors

namespace MessageKeys

namespace Text

/-- A line without a carriage return at its end. -/
def dropReturn (line : List Char) : List Char :=
  if line.getLast? = some '\r' then line.dropLast else line

/-- The lines of a text of which `line` has been read. -/
def splitLinesFrom (line : List Char) : List Char → List (List Char)
  | [] => if line.isEmpty then [] else [line]
  | c :: cs =>
    if c = '\n' then dropReturn line :: splitLinesFrom [] cs
    else splitLinesFrom (line ++ [c]) cs

/-- The lines of a text. A line ends with a line feed, before which a carriage return may stand; the
last one may also end with the text. -/
def splitLines (cs : List Char) : List (List Char) := splitLinesFrom [] cs

theorem splitLinesFrom_of_notMem {cs : List Char} (h : '\n' ∉ cs) (line : List Char) :
    splitLinesFrom line cs = if (line ++ cs).isEmpty then [] else [line ++ cs] := by
  induction cs generalizing line with
  | nil => rw [splitLinesFrom, List.append_nil]
  | cons c cs ih =>
    rw [List.mem_cons, not_or] at h
    rw [splitLinesFrom, if_neg (Ne.symm h.1), ih h.2, List.append_assoc, List.singleton_append]

theorem splitLinesFrom_append {cs : List Char} (h : '\n' ∉ cs) (line rest : List Char) :
    splitLinesFrom line (cs ++ '\n' :: rest) = dropReturn (line ++ cs) :: splitLines rest := by
  induction cs generalizing line with
  | nil => rw [List.nil_append, splitLinesFrom, if_pos rfl, List.append_nil, splitLines]
  | cons c cs ih =>
    rw [List.mem_cons, not_or] at h
    rw [List.cons_append, splitLinesFrom, if_neg (Ne.symm h.1), ih h.2, List.append_assoc,
      List.singleton_append]

theorem splitLines_of_notMem {cs : List Char} (h : '\n' ∉ cs) :
    splitLines cs = if cs.isEmpty then [] else [cs] :=
  splitLinesFrom_of_notMem h []

theorem splitLines_append {line : List Char} (h : '\n' ∉ line) (rest : List Char) :
    splitLines (line ++ '\n' :: rest) = dropReturn line :: splitLines rest :=
  splitLinesFrom_append h [] rest

theorem splitLines_join {lines : List String} (h : ∀ line ∈ lines, '\n' ∉ line.toList)
    (rest : List Char) :
    splitLines ((String.join (lines.map (· ++ "\n"))).toList ++ rest) =
      lines.map (fun line => dropReturn line.toList) ++ splitLines rest := by
  induction lines with
  | nil => rfl
  | cons line lines ih =>
    rw [List.forall_mem_cons] at h
    have hline : (line ++ "\n").toList = line.toList ++ ['\n'] := String.toList_append
    rw [List.map_cons, String.join_cons, String.toList_append, hline, List.append_assoc,
      List.append_assoc, List.singleton_append, splitLines_append h.1, ih h.2, List.map_cons,
      List.cons_append]

theorem splitLines_eq_nil_iff {cs : List Char} : splitLines cs = [] ↔ cs = [] := by
  by_cases h : '\n' ∈ cs
  · obtain ⟨line, rest, rfl, hline⟩ := List.eq_append_cons_of_mem h
    simp [splitLines_append hline]
  · rw [splitLines_of_notMem h]
    cases cs <;> simp

/-- A text is so many whole lines, whatever comes after it. -/
def OccupiesLines (count : Nat) (cs : List Char) : Prop :=
  ∃ block, block.length = count ∧ ∀ rest, splitLines (cs ++ rest) = block ++ splitLines rest

theorem trimEnd_dropReturn (line : List Char) : trimEnd (dropReturn line) = trimEnd line := by
  rw [dropReturn]
  split
  next h =>
    obtain ⟨before, rfl⟩ := List.getLast?_eq_some_iff.1 h
    have hblank : isBlank '\r' = true := by decide
    simp [trimEnd, trimStart, hblank]
  · rfl

end Text

namespace Terminal

open Text

section FirstLine

variable {line rest cs : List Char}

theorem firstLine_append (h : '\n' ∉ line) :
    firstLine (line ++ '\n' :: rest) = trimEnd line ∧
      hasSecondLine (line ++ '\n' :: rest) = !rest.isEmpty := by
  have hline : ∀ c ∈ line, (c != '\n') = true := fun c hc =>
    bne_iff_ne.2 (ne_of_mem_of_not_mem hc h)
  constructor
  · rw [firstLine, List.takeWhile_append_of_pos hline]
    simp
  · rw [hasSecondLine, List.dropWhile_append_of_pos hline]
    simp

theorem firstLine_of_notMem (h : '\n' ∉ cs) :
    firstLine cs = trimEnd cs ∧ hasSecondLine cs = false := by
  have hcs : ∀ c ∈ cs, (c != '\n') = true := fun c hc => bne_iff_ne.2 (ne_of_mem_of_not_mem hc h)
  constructor
  · rw [firstLine, List.takeWhile_eq_self_iff.2 hcs]
  · rw [hasSecondLine, List.dropWhile_eq_nil_iff.2 hcs]
    rfl

theorem firstLine_eq (cs : List Char) : firstLine cs = trimEnd ((splitLines cs).headD []) := by
  by_cases h : '\n' ∈ cs
  · obtain ⟨line, rest, rfl, hline⟩ := List.eq_append_cons_of_mem h
    rw [(firstLine_append hline).1, splitLines_append hline, List.headD_cons, trimEnd_dropReturn]
  · rw [(firstLine_of_notMem h).1, splitLines_of_notMem h]
    cases cs <;> rfl

theorem hasSecondLine_eq_false_iff : hasSecondLine cs = false ↔ (splitLines cs).length ≤ 1 := by
  by_cases h : '\n' ∈ cs
  · obtain ⟨line, rest, rfl, hline⟩ := List.eq_append_cons_of_mem h
    rw [(firstLine_append hline).2, splitLines_append hline]
    simp [splitLines_eq_nil_iff]
  · rw [(firstLine_of_notMem h).2, splitLines_of_notMem h]
    cases cs <;> simp

theorem notMem_firstLine (cs : List Char) : '\n' ∉ firstLine cs := by
  intro h
  have hkept := List.mem_takeWhile_imp ((trimEnd_sublist _).subset h)
  cases hkept

end FirstLine

theorem notMem_headline (message : String) : '\n' ∉ (headline message).toList := by
  intro h
  rw [headline, String.toList_ofList] at h
  rcases mem_headlineChars h with hfirst | hellipsis
  · exact notMem_firstLine _ hfirst
  · exact absurd hellipsis (by decide)

/-- The longest beginning of a text whose characters take at most `room` columns together. -/
structure IsLongestFitting (room : Nat) (cs kept : List Char) : Prop where
  begins : kept <+: cs
  fits : totalWidth kept ≤ room
  longest : ∀ other, other <+: cs → totalWidth other ≤ room → other.length ≤ kept.length

/-- The first character that is left out would not fit, nor would any beginning with it. -/
theorem begins_fitting {room : Nat} {cs other : List Char} (h : other <+: cs)
    (hfits : totalWidth other ≤ room) : other <+: fitting room cs := by
  induction other generalizing room cs with
  | nil => exact List.nil_prefix
  | cons c other ih =>
    obtain ⟨rest, rfl⟩ := h
    rw [totalWidth] at hfits
    rw [List.cons_append, fitting, if_pos (by omega), List.prefix_cons_inj]
    exact ih (List.prefix_append other rest) (by omega)

theorem isLongestFitting_fitting (room : Nat) (cs : List Char) :
    IsLongestFitting room cs (fitting room cs) where
  begins := fitting_begins room cs
  fits := fitting_width room cs
  longest _ hbegins hfits := (begins_fitting hbegins hfits).length_le

namespace Listing

/-- A text after the codes of its style and before a reset. Without colours it stands alone. -/
def painted (colored : Bool) (codes text : String) : String :=
  if colored then "\x1b[" ++ codes ++ "m" ++ text ++ "\x1b[0m" else text

def severityCodes : Severity → String
  | .error => "1;31"
  | .warning => "1;33"

/-- The lines about an issue: what it is, where it is, a note if there is one, and an empty line. -/
def blockLines (colored : Bool) (i : Issue) : List String :=
  [painted colored (severityCodes i.severity) i.severity.name ++ ": \"" ++ headline i.message ++
      "\"  " ++ painted colored "2;36" i.rule.name,
    "  " ++ painted colored "34" "-->" ++ " " ++ i.file ++
      (i.line.map fun n => ":" ++ toString n).getD ""] ++
  i.details.toList.map (fun details =>
    "  " ++ painted colored "34" "=" ++ " " ++ painted colored "1" "note:" ++ " " ++ details) ++
  [""]

theorem render_plain (colored : Bool) (text : String) :
    (Piece.plain text).render colored = text := by
  simp [Piece.render, Piece.plain]

theorem render_styled (colored : Bool) (s : Style) (styles : List Style) (text : String) :
    (Piece.mk (s :: styles) text).render colored =
      painted colored (";".intercalate ((s :: styles).map Style.code)) text := by
  simp [Piece.render, painted]

theorem place_eq (file : String) (line : Option Nat) :
    place file line = file ++ (line.map fun n => ":" ++ toString n).getD "" := by
  cases line with
  | none => simp [place]
  | some n => exact String.append_assoc

theorem render_issue (colored : Bool) (i : Issue) :
    (issue i).render colored = String.join ((blockLines colored i).map (· ++ "\n")) := by
  have hstring (s : String) : toString s = s := rfl
  have hseverity : (severity i.severity).render colored =
      painted colored (severityCodes i.severity) i.severity.name := by
    cases i.severity <;> rw [severity, render_styled] <;> rfl
  -- The pieces break a line elsewhere than between the lines, so the characters are compared.
  rw [← String.toList_inj]
  cases hdetails : i.details <;>
    simp [issue, blockLines, hdetails, Styled.render, render_plain, render_styled, hseverity,
      place_eq, Style.code, hstring]

theorem notMem_painted {codes text : String} (hcodes : '\n' ∉ codes.toList)
    (htext : '\n' ∉ text.toList) (colored : Bool) : '\n' ∉ (painted colored codes text).toList := by
  unfold painted
  split
  · simp [hcodes, htext]
  · exact htext

theorem notMem_blockLines {i : Issue} (hfile : '\n' ∉ i.file.toList) (colored : Bool) :
    ∀ line ∈ blockLines colored i, '\n' ∉ line.toList := by
  have hcontrol : isControl '\n' = true := by decide
  have hpainted {codes text : String} (hcodes : codes.toList.all (!isControl ·) = true)
      (htext : '\n' ∉ text.toList) : '\n' ∉ (painted colored codes text).toList :=
    notMem_painted (notMem_of_shown hcontrol hcodes) htext colored
  have hseverity : '\n' ∉ (painted colored (severityCodes i.severity) i.severity.name).toList := by
    apply hpainted
    · cases i.severity <;> decide
    · exact notMem_of_shown hcontrol (by cases i.severity <;> decide)
  have hrule : '\n' ∉ (painted colored "2;36" i.rule.name).toList :=
    hpainted (by decide) (notMem_ruleName hcontrol i.rule)
  have hblue {text : String} : '\n' ∉ text.toList → '\n' ∉ (painted colored "34" text).toList :=
    hpainted (by decide)
  have hheadline := notMem_headline i.message
  have hplace := notMem_place hcontrol hfile i.line
  rw [place_eq, String.toList_append, List.mem_append, not_or] at hplace
  intro line hline
  simp only [blockLines, List.cons_append, List.nil_append, List.mem_cons, List.mem_append,
    List.mem_map, Option.mem_toList, List.not_mem_nil, or_false] at hline
  rcases hline with rfl | rfl | ⟨details, hdetails, rfl⟩ | rfl
  · simp [hseverity, hheadline, hrule]
  · rw [String.toList_append, List.mem_append, not_or]
    exact ⟨by simp [hblue, hfile], hplace.2⟩
  · have hnote : '\n' ∉ (painted colored "1" "note:").toList := hpainted (by decide) (by decide)
    have htext := notMem_details hcontrol hdetails
    simp [hblue, hnote, htext]
  · simp

theorem length_blockLines (colored : Bool) (i : Issue) :
    (blockLines colored i).length = if i.details.isSome then 4 else 3 := by
  cases hdetails : i.details <;> simp [blockLines, hdetails]

/-- The lines of an issue are whole lines of any text that goes on after them. -/
theorem splitLines_render_issue {i : Issue} (hfile : '\n' ∉ i.file.toList) (colored : Bool)
    (rest : List Char) :
    splitLines (((issue i).render colored).toList ++ rest) =
      (blockLines colored i).map (fun line => dropReturn line.toList) ++ splitLines rest := by
  rw [render_issue]
  exact splitLines_join (notMem_blockLines hfile colored) rest

theorem occupiesLines_issue {i : Issue} (hfile : '\n' ∉ i.file.toList) (colored : Bool) :
    OccupiesLines (if i.details.isSome then 4 else 3) ((issue i).render colored).toList :=
  ⟨_, (List.length_map _).trans (length_blockLines colored i),
    splitLines_render_issue hfile colored⟩

end Listing

/-- A headline is the first line of its message without blanks at the end, if there is no other line
and it fits. Else it is the longest beginning of that line that leaves room for an ellipsis, and the
ellipsis. It has no line feed, so an issue takes four lines with a note and three without one,
unless its path has line feeds. -/
theorem headline_longest (message : String) :
    let first := trimEnd ((splitLines message.toList).headD [])
    let fits := (splitLines message.toList).length ≤ 1 ∧ stringWidth first ≤ 72
    (fits → (headline message).toList = first) ∧
      (¬fits → ∃ kept, IsLongestFitting 71 first kept ∧
        (headline message).toList = kept ++ ['…']) ∧
      '\n' ∉ (headline message).toList ∧
      ∀ (i : Issue) (colored : Bool), '\n' ∉ i.file.toList →
        OccupiesLines (if i.details.isSome then 4 else 3)
          ((Listing.issue i).render colored).toList := by
  intro first fits
  have hfits : (!hasSecondLine message.toList && stringWidth first ≤ maxHeadlineWidth) = true ↔
      fits := by
    rw [Bool.and_eq_true, Bool.not_eq_true', hasSecondLine_eq_false_iff, decide_eq_true_eq]
    rfl
  have hheadline : (headline message).toList = headlineChars message.toList :=
    String.toList_ofList
  refine ⟨fun h => ?_, fun h => ?_, notMem_headline message, fun i colored hfile => ?_⟩
  · rw [hheadline, headlineChars, firstLine_eq, if_pos (hfits.2 h)]
  · refine ⟨fitting 71 first, isLongestFitting_fitting 71 first, ?_⟩
    rw [hheadline, headlineChars, firstLine_eq, if_neg (mt hfits.1 h)]
    rfl
  · exact Listing.occupiesLines_issue hfile colored

/-- A blank, a carriage return and a second line are cut off. -/
theorem headline_longest_snippet :
    (∃ kept, IsLongestFitting 71 "<Trans>".toList kept ∧
      (headline "<Trans> \r\n  x").toList = kept ++ ['…']) ∧
      OccupiesLines 4 ((Listing.issue (.error
        ⟨"<Trans> \r\n  x", .complexTransChildren, "a.tsx", some 3⟩)).render true).toList := by
  obtain ⟨-, hcut, -, hissue⟩ := headline_longest "<Trans> \r\n  x"
  have hfirst : trimEnd ((splitLines "<Trans> \r\n  x".toList).headD []) = "<Trans>".toList := by
    decide +kernel
  have hlines := hissue (.error ⟨"<Trans> \r\n  x", .complexTransChildren, "a.tsx", some 3⟩) true
    (by decide)
  rw [hfirst] at hcut
  exact ⟨hcut (by decide +kernel), hlines⟩

end Terminal

end MessageKeys

import MessageKeys.Proofs.MarkupText
import MessageKeys.Proofs.Parsing

namespace MessageKeys.Syntax

open Text (CodeUnits decodeReferences joinBreaks)

namespace Token

theorem start_scan (c : Cursor) :
    (scan c).start = (skipTrivia .plain false [] c.offset c.rest).stop := rfl

/-- The first character of a token as a token of its own. -/
def split (t : Token) (p : Punctuator) : Token :=
  { t with kind := .punct p, stop := t.start.skipAscii 1 }

theorem next_split (t : Token) (p : Punctuator) : (t.split p).next = scan (t.start.skipAscii 1) :=
  rfl

theorem stop_split_offset (t : Token) (p : Punctuator) :
    (t.split p).stop.offset = t.start.offset + 1 := rfl

/-- A token that begins with `>`. More may have been taken into it than belongs to a tag. -/
structure BeginsGreater (t : Token) : Prop where
  kind : ∃ p ∈ Punctuator.beginning '>', t.kind = .punct p
  sameLine : t.lineBefore = false
  noFaults : t.faults = []

theorem BeginsGreater.isPunct {t : Token} (h : t.BeginsGreater) {p : Punctuator}
    (hp : p ∉ Punctuator.beginning '>') : t.isPunct p = false := by
  obtain ⟨q, hq, hkind⟩ := h.kind
  have hne : p ≠ q := by
    rintro rfl
    exact hp hq
  simp [Token.isPunct, hkind, hne]

def isGreater (t : Token) : Bool := (Punctuator.beginning '>').any t.isPunct

theorem BeginsGreater.isGreater {t : Token} (h : t.BeginsGreater) : t.isGreater = true := by
  obtain ⟨p, hp, hkind⟩ := h.kind
  rw [Token.isGreater, List.any_eq_true]
  exact ⟨p, hp, by simp [Token.isPunct, hkind]⟩

theorem BeginsGreater.split {t : Token} (h : t.BeginsGreater) :
    (t.split .greater).Is (.punct .greater) :=
  ⟨rfl, h.sameLine, h.noFaults⟩

theorem beginsGreater_scan (offset : Nat) (rest : List Char) :
    (scan ⟨offset, '>' :: rest⟩).BeginsGreater ∧
      (scan ⟨offset, '>' :: rest⟩).start = ⟨offset, '>' :: rest⟩ := by
  obtain ⟨p, hp⟩ : ∃ p, Punctuator.scan? ('>' :: rest) = some p := by
    rw [← Option.isSome_iff_exists, Punctuator.scan?, List.find?_isSome]
    exact ⟨.greater, by decide, rfl⟩
  have hmem : p ∈ Punctuator.beginning '>' := by
    rw [Punctuator.scan?] at hp
    exact List.mem_of_find?_eq_some hp
  have hkind : kindAt ⟨offset, '>' :: rest⟩ =
      (.punct p, Cursor.skipAscii ⟨offset, '>' :: rest⟩ p.length, []) := by
    unfold kindAt
    dsimp only
    rw [if_neg (by decide), if_neg (by decide), if_neg (by decide), if_neg (by simp), hp]
  have htrivia : skipTrivia .plain false [] offset ('>' :: rest) =
      ⟨⟨offset, '>' :: rest⟩, false, []⟩ := rfl
  unfold scan
  simp only [htrivia, hkind]
  exact ⟨⟨⟨p, hmem, rfl⟩, rfl, rfl⟩, trivial⟩

end Token

namespace Parser

section Run

variable (ctx : Context) (s : State)

@[simp]
theorem run_peek : peek ctx s = .ok (s.token.next, s) := rfl

@[simp]
theorem run_moveTo (c : Cursor) :
    moveTo c ctx s = .ok ((), { s with token := Token.scan c }) := rfl

@[simp]
theorem run_splitToken (p : Punctuator) :
    splitToken p ctx s = .ok ((), { s with token := s.token.split p }) := rfl

@[simp]
theorem run_atGreater : atGreater ctx s = .ok (s.token.isGreater, s) := by
  simp [atGreater, Token.isGreater, Punctuator.beginning, Bool.or_comm, Bool.or_left_comm,
    Bool.or_assoc]

end Run

variable {g : Grammar} {t t₁ t₂ t' : Token} {n : Node}

theorem reads_expectLess (ht : t.Is (.punct .less)) :
    Reads expectLess t () (Token.scan (t.start.skipAscii 1)) := by
  intro ctx faults
  have hsplit : (t.split .less).Is (.punct .less) := ⟨rfl, ht.sameLine, ht.noFaults⟩
  simp [expectLess, atLess, ht.isPunct, reads_bump_punct hsplit, Token.next_split]

theorem reads_markupWord {word : String} {escaped : Bool} {name : List Char} {stop : Cursor}
    (ht : t.kind = .word word escaped)
    (hname : scanMarkupName [] t.start.offset t.start.rest = (name, stop)) :
    Reads markupWord t (String.ofList name) (Token.scan stop) := by
  intro ctx faults
  simp [markupWord, ht, hname]

theorem reads_attributeName {name : String} (h : Reads markupWord t name t')
    (hcolon : t'.isPunct .colon = false) : Reads attributeName t (.plain name) t' := by
  intro ctx faults
  simp [attributeName, h, eat, hcolon]

theorem reads_elementName {name : MarkupName} (h : Reads attributeName t name t')
    (hdot : t'.isPunct .dot = false) : Reads elementName t name t' := by
  intro ctx faults
  unfold elementName
  cases name <;> simp [h, hdot]

theorem reads_attributeString {quote : Char} {text rest : List Char}
    (ht : t.start.rest = quote :: (text ++ quote :: rest)) (hquote : quote ∉ text) :
    ∃ stop, Reads (attributeString quote) t
      (.string (some ⟨t.start.offset, stop⟩) (CodeUnits.ofChars (decodeReferences text)))
      (Token.scan ⟨stop, rest⟩) := by
  obtain ⟨stop, hscan⟩ := scanMarkupString?_append hquote [] (t.start.offset + 1) rest
  refine ⟨stop, fun ctx faults => ?_⟩
  simp [attributeString, ht, hscan]

theorem reads_attributeValue {text rest : List Char}
    (ht : t.start.rest = '"' :: (text ++ '"' :: rest)) (hquote : '"' ∉ text) :
    ∃ stop, ∀ g, Reads (attributeValue g) t
      (.string (some ⟨t.start.offset, stop⟩) (CodeUnits.ofChars (decodeReferences text)))
      (Token.scan ⟨stop, rest⟩) := by
  obtain ⟨stop, hstring⟩ := reads_attributeString ht hquote
  refine ⟨stop, fun g ctx faults => ?_⟩
  unfold attributeValue
  simp [ht, hstring]

theorem reads_markupAttribute {name : MarkupName} (hbrace : t.isPunct .braceOpen = false)
    (hname : Reads attributeName t name t₁) (hassign : t₁.Is (.punct .assign))
    (hvalue : Reads (attributeValue g) t₁.next n t') :
    Reads (markupAttribute g) t (.attr (some ⟨t.start.offset, t'.leading.offset⟩) name (some n))
      t' := by
  intro ctx faults
  unfold markupAttribute
  simp [eat, hbrace, hname, hassign.isPunct, reads_bump_punct hassign, hvalue]

theorem reads_markupText? {c : Cursor} {text rest : List Char} (hc : c.rest = text ++ '<' :: rest)
    (htext : '<' ∉ text ∧ '>' ∉ text ∧ '\x7b' ∉ text ∧ '\x7d' ∉ text) (hne : text ≠ []) :
    ∃ stop, Reads (markupText? c) t
      ([.text (some ⟨c.offset, stop⟩) (String.ofList (decodeReferences (joinBreaks text)))],
        ⟨stop, '<' :: rest⟩) t := by
  obtain ⟨stop, hscan⟩ := scanMarkupText_append htext [] [] c.offset rest
  refine ⟨stop, fun ctx faults => ?_⟩
  unfold markupText?
  simp [hc, hscan, hne]

theorem reads_nextChild {text rest : List Char} (ht : t.stop.rest = text ++ '<' :: rest)
    (htext : '<' ∉ text ∧ '>' ∉ text ∧ '\x7b' ∉ text ∧ '\x7d' ∉ text) (hne : text ≠ [])
    (hclosing : ∀ offset, (Token.scan ⟨offset, '<' :: rest⟩).Is (.punct .less) ∧
      (Token.scan ⟨offset, '<' :: rest⟩).next.Is (.punct .slash)) :
    ∃ stop, ∀ g, Reads (nextChild g ⟨[], false⟩) t
      (some ⟨[.text (some ⟨t.stop.offset, stop⟩)
        (String.ofList (decodeReferences (joinBreaks text)))], true⟩)
      (Token.scan ⟨stop, '<' :: rest⟩) := by
  obtain ⟨stop, hread⟩ := reads_markupText? (t := t) ht htext hne
  obtain ⟨hless, hslash⟩ := hclosing stop
  refine ⟨stop, fun g ctx faults => ?_⟩
  unfold nextChild
  simp [hread, hless.isPunct, hslash.isPunct]

theorem reads_nextChild_closed (nodes : List Node) : Reads (nextChild g ⟨nodes, true⟩) t none t := by
  intro ctx faults
  simp [nextChild]

theorem reads_childrenAndClosing {name : MarkupName} {nodes : List Node}
    (hchildren : Reads (iterate (nextChild g) ⟨[], false⟩) t ⟨nodes, true⟩ t₁)
    (hless : t₁.Is (.punct .less)) (hslash : t₁.next.Is (.punct .slash))
    (hword : t₁.next.next.isGreater = false) (hname : Reads elementName t₁.next.next name t')
    (ht' : t'.BeginsGreater) :
    Reads (childrenAndClosing g (some name)) t nodes.reverse (t'.split .greater) := by
  intro ctx faults
  unfold childrenAndClosing
  simp [hchildren, reads_bump_punct hless, reads_bump_punct hslash, hword, hname, ht'.isGreater]

def attributesEnd : Parser Bool := return (← atPunct .slash) || (← atGreater) || (← atEof)

theorem reads_attributesEnd (t : Token) :
    Reads attributesEnd t (t.isPunct .slash || t.isGreater || t.isEof) t := by
  intro ctx faults
  simp [attributesEnd]

section Element

variable {name : MarkupName} {attributes : List Node} (ht : t.Is (.punct .less))
  (hword : (Token.scan (t.start.skipAscii 1)).isGreater = false)
  (hname : Reads elementName (Token.scan (t.start.skipAscii 1)) name t₁)
  (hgenerics : t₁.isPunct .less = false ∧ t₁.isPunct .shiftLeft = false)
  (hattributes : Reads (many attributesEnd (markupAttribute g)) t₁ attributes t₂)
include ht hword hname hgenerics hattributes

theorem reads_element_closed (hslash : t₂.Is (.punct .slash)) (ht' : t₂.next.BeginsGreater) :
    Reads (element g) t
      (.element (some ⟨t.start.offset, t₂.next.start.offset + 1⟩) name attributes [])
      (t₂.next.split .greater) := by
  intro ctx faults
  unfold attributesEnd at hattributes
  unfold element
  -- Otherwise the test for the end would be rewritten in the goal alone.
  generalize many (return (← atPunct .slash) || (← atGreater) || (← atEof)) (markupAttribute g) =
    readAttributes at hattributes ⊢
  simp [reads_expectLess ht, hword, hname, atLess, hgenerics, hattributes, eat, hslash.isPunct,
    reads_bump_punct hslash, ht'.isGreater, Token.stop_split_offset]

theorem reads_element_open {children : List Node} (hgreater : t₂.BeginsGreater)
    (hchildren : Reads (childrenAndClosing g (some name)) (t₂.split .greater) children t') :
    Reads (element g) t
      (.element (some ⟨t.start.offset, t'.stop.offset⟩) name attributes children) t' := by
  intro ctx faults
  have hslash : t₂.isPunct .slash = false := hgreater.isPunct (by decide)
  unfold attributesEnd at hattributes
  unfold element
  generalize many (return (← atPunct .slash) || (← atGreater) || (← atEof)) (markupAttribute g) =
    readAttributes at hattributes ⊢
  simp [reads_expectLess ht, hword, hname, atLess, hgenerics, hattributes, eat, hslash,
    hgreater.isGreater, hchildren]

end Element

theorem reads_leftHandSide_element (ht : t.Is (.punct .less))
    (h : Reads (g .element) t n (t'.split .greater)) (ht' : t'.BeginsGreater)
    (hend : (t'.split .greater).next.EndsOperand) :
    Reads (leftHandSide g) t n (t'.split .greater).next := by
  intro ctx faults
  have hless := hend.isPunct (p := .less) nofun nofun
  unfold leftHandSide elementValue
  simp [ht.isPunct, h, reads_bump_punct ht'.split, hless]

section Parentheses

variable {span : Option Text.Span} {name : MarkupName} {attributes children : List Node}

theorem reads_parenItem (ht : t.Is (.punct .less))
    (h : Reads (g .assignment) t (.element span name attributes children) t')
    (ht' : t'.Is (.punct .parenClose)) :
    Reads (parenItem g) t ⟨.element span name attributes children, false⟩ t' := by
  intro ctx faults
  unfold parenItem
  simp [eatAccessModifier, Token.isWord, ht.kind_eq, atIdentifier, isIdentifierToken, ht.isPunct,
    expressionOrSpread, eat, h, atOptionalMark, ht'.isPunct]

variable (ht : t.Is (.punct .parenOpen)) (hnext : t.next.Is (.punct .less))
  (h : Reads (g .assignment) t.next (.element span name attributes children) t')
  (ht' : t'.Is (.punct .parenClose))
include ht hnext h ht'

theorem reads_parenItems :
    Reads (parenItems g) t ⟨[⟨.element span name attributes children, false⟩], none⟩ t'.next := by
  have heof : t.next.isEof = false := by simp [Token.isEof, hnext.kind_eq]
  intro ctx faults
  unfold parenItems
  simp only [run_bind, reads_expect ht, bind_ok, run_inside]
  rw [reads_iterate_once (b := ([⟨.element span name attributes children, false⟩], none))
    (u := t') ?_ ?_]
  · simp [reads_expect ht']
  · intro ctx faults
    simp [hnext.isPunct, heof, reads_parenItem hnext h ht', ht'.isPunct]
  · intro ctx faults
    simp [ht'.isPunct]

theorem reads_primary_paren (hend : t'.next.EndsOperand) :
    Reads (primary g) t (.paren (some ⟨t.start.offset, t'.stop.offset⟩)
      (.element span name attributes children)) t'.next := by
  intro ctx faults
  have hcolon := hend.isPunct (p := .colon) nofun nofun
  have harrow := hend.isPunct (p := .arrow) nofun nofun
  unfold primary
  simp [ht.kind_eq, parenOrArrow, reads_parenItems ht hnext h ht', hcolon, harrow, parenthesized,
    Token.next_leading]

theorem reads_leftHandSide_paren (hend : t'.next.EndsOperand) :
    Reads (leftHandSide g) t (.paren (some ⟨t.start.offset, t'.stop.offset⟩)
      (.element span name attributes children)) t'.next := by
  have hprimary := reads_primary_paren ht hnext h ht' hend
  apply reads_leftHandSide (ht.beginsExpression_of_punct (.inl rfl)) (by simp [ht.isPunct]) hprimary
    rfl
  exact reads_iterate (reads_iterateFrom_none (reads_subscript?_none hend false))

end Parentheses

end Parser

end MessageKeys.Syntax

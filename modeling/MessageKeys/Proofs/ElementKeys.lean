import MessageKeys.Keys.Extraction
import MessageKeys.Proofs.EscapedText
import MessageKeys.Proofs.MarkupParsing
import MessageKeys.Proofs.Verdict

namespace MessageKeys

open Syntax (Node Token Module)
open Text (CodeUnits Source decodeReferences joinBreaks withReferences numeral)

namespace Syntax

open Syntax.Parser

def transThen (rest : List Char) : List Char := 'T' :: 'r' :: 'a' :: 'n' :: 's' :: rest

def keyThen (rest : List Char) : List Char :=
  ' ' :: 'i' :: '1' :: '8' :: 'n' :: 'K' :: 'e' :: 'y' :: '=' :: rest

/-- A token with which an element begins that is all there is up to the end of a text. -/
structure Token.SpellsElement (t : Token) (n : Node) (t' : Token) : Prop where
  begins : t.Is (.punct .less)
  reads : ∀ g, Reads (element g) t n (t'.split .greater)
  ends : t'.BeginsGreater
  rest_eq : (t'.split .greater).stop.rest = [')', ';']

/-- A key in double quotes as the only attribute of a tag that closes itself. -/
theorem reads_keyAttribute {body : List Char} (hbody : '"' ∉ body) :
    ∃ span span' stop, ∀ g, Reads (many attributesEnd (markupAttribute g))
      (Token.scan ⟨7, keyThen ('"' :: (body ++ ['"', ' ', '/', '>', ')', ';']))⟩)
      [.attr span (.plain "i18nKey")
        (some (.string span' (CodeUnits.ofChars (decodeReferences body))))]
      (Token.scan ⟨stop, [' ', '/', '>', ')', ';']⟩) := by
  -- The tokens before the value do not depend on it.
  generalize hvalue : '"' :: (body ++ ['"', ' ', '/', '>', ')', ';']) = value
  have hstart : (Token.scan ⟨16, value⟩).start.rest =
      '"' :: (body ++ '"' :: [' ', '/', '>', ')', ';']) := by
    rw [Token.start_scan, ← hvalue]
    rfl
  obtain ⟨stop, hread⟩ := reads_attributeValue hstart hbody
  have hname : Reads attributeName (Token.scan ⟨7, keyThen value⟩) (.plain "i18nKey")
      (Token.scan ⟨15, '=' :: value⟩) := by
    refine reads_attributeName (reads_markupWord rfl rfl) ?_
    rw [← hvalue]
    rfl
  have hassign : (Token.scan ⟨15, '=' :: value⟩).Is (.punct .assign) ∧
      (Token.scan ⟨15, '=' :: value⟩).next = Token.scan ⟨16, value⟩ := by
    rw [← hvalue]
    exact ⟨⟨rfl, rfl, rfl⟩, rfl⟩
  exact ⟨_, _, stop, fun g => reads_many_singleton (reads_attributesEnd _)
    (reads_markupAttribute rfl hname hassign.1 (hassign.2 ▸ hread g)) (reads_attributesEnd _)⟩

theorem Token.spellsElement_key {body : List Char} (hbody : '"' ∉ body) :
    ∃ span span₁ span₂ t',
      (Token.scan ⟨1, '<' :: transThen (keyThen
        ('"' :: (body ++ ['"', ' ', '/', '>', ')', ';'])))⟩).SpellsElement
      (.element span (.plain "Trans") [.attr span₁ (.plain "i18nKey")
        (some (.string span₂ (CodeUnits.ofChars (decodeReferences body))))] []) t' := by
  obtain ⟨span₁, span₂, stop, hattributes⟩ := reads_keyAttribute hbody
  generalize '"' :: (body ++ ['"', ' ', '/', '>', ')', ';']) = value at hattributes ⊢
  have hless : (Token.scan ⟨1, '<' :: transThen (keyThen value)⟩).Is (.punct .less) :=
    ⟨rfl, rfl, rfl⟩
  have hname : Reads elementName (Token.scan ⟨2, transThen (keyThen value)⟩) (.plain "Trans")
      (Token.scan ⟨7, keyThen value⟩) :=
    reads_elementName (reads_attributeName (reads_markupWord rfl rfl) rfl) rfl
  have hclosing : (Token.scan ⟨stop, [' ', '/', '>', ')', ';']⟩).next.BeginsGreater :=
    (Token.beginsGreater_scan _ _).1
  exact ⟨_, span₁, span₂, _, hless, fun g => reads_element_closed hless rfl hname ⟨rfl, rfl⟩
    (hattributes g) ⟨rfl, rfl, rfl⟩ hclosing, hclosing, rfl⟩

theorem reads_elementName_last (offset : Nat) (rest : List Char) :
    Reads elementName (Token.scan ⟨offset, transThen ('>' :: rest)⟩) (.plain "Trans")
      (Token.scan ⟨offset + 5, '>' :: rest⟩) := by
  have hgreater := (Token.beginsGreater_scan (offset + 5) rest).1
  have hword : Reads markupWord (Token.scan ⟨offset, transThen ('>' :: rest)⟩) "Trans"
      (Token.scan ⟨offset + 5, '>' :: rest⟩) := reads_markupWord rfl rfl
  exact reads_elementName (reads_attributeName hword (hgreater.isPunct (by decide)))
    (hgreater.isPunct (by decide))

theorem reads_textAndClosing {t : Token} {body : List Char}
    (ht : t.stop.rest = body ++ '<' :: '/' :: transThen ['>', ')', ';'])
    (hbody : '<' ∉ body ∧ '>' ∉ body ∧ '\x7b' ∉ body ∧ '\x7d' ∉ body) (hne : body ≠ []) :
    ∃ span, ∃ t' : Token, t'.BeginsGreater ∧ (t'.split .greater).stop.rest = [')', ';'] ∧
      ∀ g, Reads (childrenAndClosing g (some (.plain "Trans"))) t
        [.text span (String.ofList (decodeReferences (joinBreaks body)))] (t'.split .greater) := by
  obtain ⟨stop, htext⟩ := reads_nextChild ht hbody hne
    fun offset => ⟨⟨rfl, rfl, rfl⟩, ⟨rfl, rfl, rfl⟩⟩
  have hgreater := (Token.beginsGreater_scan (stop + 7) [')', ';']).1
  have hname := reads_elementName_last (stop + 2) [')', ';']
  refine ⟨some ⟨t.stop.offset, stop⟩, _, hgreater, rfl, fun g => ?_⟩
  have hchildren := reads_iterate_once (htext g) (reads_nextChild_closed _)
  exact reads_childrenAndClosing hchildren ⟨rfl, rfl, rfl⟩ ⟨rfl, rfl, rfl⟩ rfl hname hgreater

theorem Token.spellsElement_text {body : List Char}
    (hbody : '<' ∉ body ∧ '>' ∉ body ∧ '\x7b' ∉ body ∧ '\x7d' ∉ body) (hne : body ≠ []) :
    ∃ span span₁ t',
      (Token.scan ⟨1, '<' :: transThen
        ('>' :: (body ++ '<' :: '/' :: transThen ['>', ')', ';']))⟩).SpellsElement
      (.element span (.plain "Trans") []
        [.text span₁ (String.ofList (decodeReferences (joinBreaks body)))]) t' := by
  generalize hrest : body ++ '<' :: '/' :: transThen ['>', ')', ';'] = rest
  obtain ⟨hgreater, hstart⟩ := Token.beginsGreater_scan 7 rest
  have hstop : ((Token.scan ⟨7, '>' :: rest⟩).split .greater).stop = ⟨8, rest⟩ :=
    congrArg (Cursor.skipAscii · 1) hstart
  obtain ⟨span₁, t', ht', hend, hchildren⟩ :=
    reads_textAndClosing ((congrArg Cursor.rest hstop).trans hrest.symm) hbody hne
  have hattributes (g : Grammar) :
      Reads (many attributesEnd (markupAttribute g)) (Token.scan ⟨7, '>' :: rest⟩) []
        (Token.scan ⟨7, '>' :: rest⟩) := by
    apply reads_many_nil
    intro ctx faults
    simp [reads_attributesEnd, hgreater.isGreater]
  have hless : (Token.scan ⟨1, '<' :: transThen ('>' :: rest)⟩).Is (.punct .less) := ⟨rfl, rfl, rfl⟩
  have hname : Reads elementName (Token.scan ⟨2, transThen ('>' :: rest)⟩) (.plain "Trans")
      (Token.scan ⟨7, '>' :: rest⟩) := reads_elementName_last 2 rest
  exact ⟨_, span₁, t', hless, fun g => reads_element_open hless rfl hname
    ⟨hgreater.isPunct (by decide), hgreater.isPunct (by decide)⟩ (hattributes g) hgreater
    (hchildren g), ht', hend⟩

theorem Module.parse_element {rest : List Char} {span : Option Text.Span} {name : MarkupName}
    {attributes children : List Node} {t' : Token}
    (h : (Token.scan ⟨1, '<' :: rest⟩).SpellsElement (.element span name attributes children) t')
    (hstray : (Node.element span name attributes children).strayInitializers = []) :
    ∃ outer inner, Module.parse ('(' :: '<' :: rest) =
      .ok ⟨[.form outer .statement [.paren inner (.element span name attributes children)]]⟩ := by
  obtain ⟨hclose, hsemicolon, heof⟩ := Token.closes h.rest_eq
  have hopen : (Token.scan ⟨0, '(' :: '<' :: rest⟩).Is (.punct .parenOpen) := ⟨rfl, rfl, rfl⟩
  have hnext : (Token.scan ⟨0, '(' :: '<' :: rest⟩).next = Token.scan ⟨1, '<' :: rest⟩ := rfl
  generalize Token.scan ⟨1, '<' :: rest⟩ = t at h hnext
  have hvalue (depth : Nat) : Reads (leftHandSide (Grammar.ofDepth Grammar.step (depth + 1))) t
      (.element span name attributes children) (t'.split .greater).next :=
    reads_leftHandSide_element h.begins (h.reads (Grammar.ofDepth Grammar.step depth)) h.ends
      (.inl hclose)
  have hparen (depth : Nat) : Reads (leftHandSide (Grammar.ofDepth Grammar.step (depth + 4)))
      (Token.scan ⟨0, '(' :: '<' :: rest⟩)
      (.paren (some ⟨0, (t'.split .greater).next.stop.offset⟩)
        (.element span name attributes children)) (t'.split .greater).next.next := by
    have hassignment := reads_assignment (depth + 1) (h.begins.beginsExpression_of_punct (.inr rfl))
      (hvalue depth) rfl (.inl hclose)
    exact reads_leftHandSide_paren hopen (hnext ▸ h.begins) (hnext ▸ hassignment) hclose
      (.inr hsemicolon)
  have hname (span' : Option Text.Span) (name' : String) :
      Node.paren (some ⟨0, (t'.split .greater).next.stop.offset⟩)
        (.element span name attributes children) ≠ .identifier span' name' := by
    intro h
    cases h
  exact ⟨_, _, Module.parse_statement (hopen.beginsExpression_of_punct (.inl rfl)) hparen rfl hname
    (by rwa [Node.strayInitializers]) hsemicolon heof⟩

/-- A part of an element in which nothing is looked for. -/
inductive Node.IsInert : Node → Prop where
  | attr (span : Option Text.Span) (name : MarkupName) (span' : Option Text.Span)
    (units : CodeUnits) : IsInert (.attr span name (some (.string span' units)))
  | text (span : Option Text.Span) (value : String) : IsInert (.text span value)

theorem Node.strayInitializersIn_of_isInert {ns : List Node} (h : ∀ n ∈ ns, n.IsInert) :
    Node.strayInitializersIn ns = [] := by
  induction ns with
  | nil => rfl
  | cons n ns ih =>
    rw [List.forall_mem_cons] at h
    rw [Node.strayInitializersIn, ih h.2, List.append_nil]
    cases h.1 <;> simp [Node.strayInitializers]

end Syntax

theorem Extraction.visitAll_of_isInert {ns : List Node} (h : ∀ n ∈ ns, n.IsInert) (src : Source)
    (file : String) (e : Extraction) : e.visitAll src file ns = e := by
  induction ns with
  | nil => rfl
  | cons n ns ih =>
    rw [List.forall_mem_cons] at h
    have hn : e.visit src file n = e := by
      cases h.1 <;> simp [Extraction.visit]
    rw [Extraction.visitAll, hn, ih h.2]

/-- A translation element in parentheses yields the key that is accepted for it, and nothing else. -/
theorem tryExtract_element {text label key : String} {rest : List Char} {span : Option Text.Span}
    {attributes children : List Node} {t' : Token} (htext : text.toList = '(' :: '<' :: rest)
    (h : (Token.scan ⟨1, '<' :: rest⟩).SpellsElement
      (.element span (.plain "Trans") attributes children) t')
    (hattributes : ∀ n ∈ attributes, n.IsInert) (hchildren : ∀ n ∈ children, n.IsInert)
    (hverdict : ∀ snippet, ElementVerdict snippet attributes children (.accepted key)) :
    tryExtract text label = .ok ⟨StringSet.ofList [key], [], []⟩ := by
  have hstray : (Node.element span (.plain "Trans") attributes children).strayInitializers = [] := by
    rw [Node.strayInitializers, Node.strayInitializersIn_of_isInert hattributes,
      Node.strayInitializersIn_of_isInert hchildren, List.append_nil]
  obtain ⟨outer, inner, hparse⟩ := Module.parse_element h hstray
  have hsource : Source.ofString text = ⟨'(' :: '<' :: rest⟩ := by
    unfold Source.ofString
    rw [htext]
    rfl
  have houtcome (snippet : String) : transOutcome snippet attributes children = .accepted key :=
    transOutcome_eq_iff.2 (hverdict snippet)
  simp [tryExtract, hsource, parseSource, hparse, Extraction.ofModule, Extraction.visitAll,
    Extraction.visit, Extraction.visitAll_of_isInert hattributes,
    Extraction.visitAll_of_isInert hchildren, Extraction.judge, outcome?, houtcome]
  rfl

/-- How a character is written in the value of an attribute, where it cannot stand for itself. -/
def attributeReference? (c : Char) : Option (List Char) :=
  if c = '&' then some ['a', 'm', 'p'] else if c = '"' then some ['q', 'u', 'o', 't'] else none

/-- How a character is written between tags, where it cannot stand for itself. -/
def textReference? (c : Char) : Option (List Char) :=
  if c ∈ ['&', '<', '>', '\x7b', '\x7d', '\r'] then some (numeral c) else none

def inAttribute (key : String) : String :=
  String.ofList (withReferences attributeReference? key.toList)

def inText (key : String) : String :=
  String.ofList (withReferences textReference? key.toList)

theorem attributeReference?_eq_some {c : Char} {name : List Char}
    (h : attributeReference? c = some name) :
    c = '&' ∧ name = ['a', 'm', 'p'] ∨ c = '"' ∧ name = ['q', 'u', 'o', 't'] := by
  unfold attributeReference? at h
  split at h
  next hc => exact .inl ⟨hc, (Option.some.inj h).symm⟩
  · split at h
    next hc => exact .inr ⟨hc, (Option.some.inj h).symm⟩
    · cases h

theorem decodeReferences_inAttribute (cs : List Char) :
    decodeReferences (withReferences attributeReference? cs) = cs := by
  refine Text.decodeReferences_withReferences (by decide) (fun c name h => ?_) cs
  rcases attributeReference?_eq_some h with ⟨rfl, rfl⟩ | ⟨rfl, rfl⟩
  · exact ⟨by decide, by decide, by decide⟩
  · exact ⟨by decide, by decide, by decide⟩

theorem notMem_inAttribute (cs : List Char) : '"' ∉ withReferences attributeReference? cs := by
  refine Text.notMem_withReferences (by decide) (by decide) (by decide) (fun c name h => ?_) cs
  rcases attributeReference?_eq_some h with ⟨-, rfl⟩ | ⟨-, rfl⟩ <;> decide

theorem eq_numeral_of_textReference? {c : Char} {name : List Char}
    (h : textReference? c = some name) : name = numeral c := by
  unfold textReference? at h
  split at h
  · exact (Option.some.inj h).symm
  · cases h

theorem decodeReferences_inText (cs : List Char) :
    decodeReferences (withReferences textReference? cs) = cs := by
  refine Text.decodeReferences_withReferences (by decide) (fun c name h => ?_) cs
  rw [eq_numeral_of_textReference? h]
  exact Text.refersTo_numeral c

/-- Of the characters that are written as references only the ampersand is left, to begin one. -/
theorem notMem_inText {x : Char} (hx : x ∈ ['<', '>', '\x7b', '\x7d', '\r']) (cs : List Char) :
    x ∉ withReferences textReference? cs := by
  have hx' : textReference? x ≠ none ∧ x ≠ '&' ∧ x ≠ ';' ∧ x ≠ '#' ∧ x.isDigit = false := by
    simp only [List.mem_cons, List.not_mem_nil, or_false] at hx
    rcases hx with rfl | rfl | rfl | rfl | rfl <;> simp [textReference?]
  obtain ⟨hreference, hamp, hsemicolon, hhash, hdigit⟩ := hx'
  refine Text.notMem_withReferences hreference hamp hsemicolon (fun c name h => ?_) cs
  rw [eq_numeral_of_textReference? h]
  exact Text.notMem_numeral hhash hdigit c

theorem tryExtract_inAttribute (key label : String) :
    tryExtract ("(<Trans i18nKey=\"" ++ inAttribute key ++ "\" />);") label =
      .ok ⟨StringSet.ofList [key], [], []⟩ := by
  obtain ⟨span, span₁, span₂, t', hspells⟩ :=
    Token.spellsElement_key (notMem_inAttribute key.toList)
  rw [decodeReferences_inAttribute] at hspells
  have htext : ("(<Trans i18nKey=\"" ++ inAttribute key ++ "\" />);").toList = '(' :: '<' ::
      Syntax.transThen (Syntax.keyThen ('"' :: (withReferences attributeReference? key.toList ++
        ['"', ' ', '/', '>', ')', ';']))) := by
    simp [inAttribute, Syntax.transThen, Syntax.keyThen]
  have hbefore (s : Option Text.Span) (value : Option Node) :
      Node.attr s (.plain "i18nKey") value ∉ ([] : List Node) := List.not_mem_nil
  have hkey : KeyAttribute [.attr span₁ (.plain "i18nKey")
      (some (.string span₂ (CodeUnits.ofChars key.toList)))] key :=
    .mk hbefore (CodeUnits.toString?_ofString key)
  refine tryExtract_element htext hspells ?_ (List.forall_mem_nil _) fun snippet => .keyAlone hkey rfl
  exact List.forall_mem_singleton.2 (.attr _ _ _ _)

def IsLayout (s : String) : Prop := ∀ c ∈ s.toList, c = ' ' ∨ c = '\n'

instance (s : String) : Decidable (IsLayout s) :=
  List.decidableBAll (fun c => c = ' ' ∨ c = '\n') s.toList

theorem IsLayout.isBlank {s : String} (h : IsLayout s) : ∀ c ∈ s.toList, Text.isBlank c = true := by
  intro c hc
  rcases h c hc with rfl | rfl <;> decide

theorem IsLayout.withReferences_eq {s : String} (h : IsLayout s) :
    withReferences textReference? s.toList = s.toList := by
  refine Text.withReferences_of_plain fun c hc => ?_
  rcases h c hc with rfl | rfl <;> decide

theorem spellsElement_inText {cs : List Char} (hcs : cs ≠ []) :
    ∃ span span₁ t',
      (Token.scan ⟨1, '<' :: Syntax.transThen ('>' :: (withReferences textReference? cs ++
        '<' :: '/' :: Syntax.transThen ['>', ')', ';']))⟩).SpellsElement
      (.element span (.plain "Trans") [] [.text span₁ (String.ofList cs)]) t' := by
  have hplain (x : Char) (hx : x ∈ ['<', '>', '\x7b', '\x7d', '\r']) :
      x ∉ withReferences textReference? cs := notMem_inText hx cs
  have hne : withReferences textReference? cs ≠ [] := by
    intro hnil
    have hdecode := decodeReferences_inText cs
    rw [hnil] at hdecode
    exact hcs hdecode.symm
  obtain ⟨span, span₁, t', hspells⟩ := Token.spellsElement_text
    ⟨hplain _ (by decide), hplain _ (by decide), hplain _ (by decide), hplain _ (by decide)⟩ hne
  rw [Text.joinBreaks_of_notMem (hplain _ (by decide)), decodeReferences_inText] at hspells
  exact ⟨span, span₁, t', hspells⟩

theorem tryExtract_inText {before key after : String} (hbefore : IsLayout before)
    (hafter : IsLayout after) (hne : key ≠ "") (htrimmed : Trimmed key.toList) (label : String) :
    tryExtract ("(<Trans>" ++ before ++ inText key ++ after ++ "</Trans>);") label =
      .ok ⟨StringSet.ofList [key], [], []⟩ := by
  -- With the layout around it, the key is written like any other text.
  set whole := before.toList ++ key.toList ++ after.toList with hwhole
  have hwritten : withReferences textReference? whole =
      before.toList ++ withReferences textReference? key.toList ++ after.toList := by
    rw [Text.withReferences_append, Text.withReferences_append, hbefore.withReferences_eq,
      hafter.withReferences_eq]
  have hcs : whole ≠ [] := by simp [hwhole, hne]
  obtain ⟨span, span₁, t', hspells⟩ := spellsElement_inText hcs
  have htext : ("(<Trans>" ++ before ++ inText key ++ after ++ "</Trans>);").toList = '(' :: '<' ::
      Syntax.transThen ('>' :: (withReferences textReference? whole ++
        '<' :: '/' :: Syntax.transThen ['>', ')', ';'])) := by
    rw [hwritten]
    simp [inText, Syntax.transThen]
  have hsimple : SimpleText [.text span₁ (String.ofList whole)] key :=
    .mk (by rw [String.toList_ofList]) hbefore.isBlank hafter.isBlank hne htrimmed
  have hnokey (k : String) : ¬KeyAttribute [] k := by
    intro h
    simpa [explicitKey?] using explicitKey?_eq_some_iff.2 h
  refine tryExtract_element htext hspells (List.forall_mem_nil _) ?_ fun _ => .text hnokey hsimple
  exact List.forall_mem_singleton.2 (.text _ _)

/-- A key that is spelled as an attribute of an element or as its text comes back as it was, whatever
layout stands around the text. -/
theorem tryExtract_written_element (key label : String) :
    tryExtract ("(<Trans i18nKey=\"" ++ inAttribute key ++ "\" />);") label =
        .ok ⟨StringSet.ofList [key], [], []⟩ ∧
      ∀ before after, IsLayout before → IsLayout after → key ≠ "" → Trimmed key.toList →
        tryExtract ("(<Trans>" ++ before ++ inText key ++ after ++ "</Trans>);") label =
          .ok ⟨StringSet.ofList [key], [], []⟩ :=
  ⟨tryExtract_inAttribute key label, fun _ _ hbefore hafter hne htrimmed =>
    tryExtract_inText hbefore hafter hne htrimmed label⟩

def markupKey : String := "<b>&amp;</b>\r\n \x7b\"ü\"\x7d"

theorem tryExtract_written_element_markupKey :
    inAttribute markupKey = "<b>&amp;amp;</b>\r\n \x7b&quot;ü&quot;\x7d" ∧
      inText markupKey = "&#60;b&#62;&#38;amp;&#60;/b&#62;&#13;\n &#123;\"ü\"&#125;" ∧
      tryExtract ("(<Trans i18nKey=\"" ++ inAttribute markupKey ++ "\" />);") "a.tsx" =
        .ok ⟨StringSet.ofList [markupKey], [], []⟩ ∧
      tryExtract ("(<Trans>" ++ "\n  " ++ inText markupKey ++ "\n" ++ "</Trans>);") "a.tsx" =
        .ok ⟨StringSet.ofList [markupKey], [], []⟩ := by
  obtain ⟨hattribute, htext⟩ := tryExtract_written_element markupKey "a.tsx"
  have htrimmed : Trimmed markupKey.toList := by
    constructor <;> simp [markupKey, Text.isBlank]
  exact ⟨by decide +kernel, by decide +kernel, hattribute,
    htext _ _ (by decide) (by decide) (by decide) htrimmed⟩

end MessageKeys

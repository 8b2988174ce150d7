import MessageKeys.Keys.Extraction
import MessageKeys.Proofs.EscapedText
import MessageKeys.Proofs.Parsing

namespace MessageKeys

open Syntax (Node Segment Token Module)
open Text (CodeUnits Source)

namespace Text

theorem byteLength_cons_pos (c : Char) (cs : List Char) : 0 < byteLength (c :: cs) := by
  have hc := c.utf8Size_pos
  rw [byteLength_cons]
  omega

theorem Source.lineAt_zero (c : Char) (cs : List Char) : Source.lineAt ⟨c :: cs⟩ 0 = 1 := by
  have hbreaks : ∀ b ∈ (breaksFrom 0 (c :: cs)).filter (· < size ⟨c :: cs⟩), ¬ decide (b ≤ 0) = true := by
    intro b hb
    have := lt_of_mem_breaksFrom (List.mem_filter.1 hb).1
    simp only [decide_eq_true_eq]
    omega
  have hsize : decide (0 < size ⟨c :: cs⟩) = true := decide_eq_true (byteLength_cons_pos c cs)
  change ((0 :: breaksFrom 0 (c :: cs)).filter (· < size ⟨c :: cs⟩)).countP (· ≤ 0) = 1
  rw [List.filter_cons, if_pos hsize, List.countP_cons, List.countP_eq_zero.2 hbreaks]
  rfl

end Text

namespace Syntax

open Syntax.Parser (Reads)

/-- A text that is spelled out: a string, or a template without holes. -/
inductive Node.IsLiteral : Node → Prop where
  | string (span : Option Text.Span) (units : CodeUnits) : IsLiteral (.string span units)
  | template (span : Option Text.Span) (segments : List Segment) :
    IsLiteral (.template span segments [])

theorem Node.IsLiteral.endsAssignment {n : Node} (h : n.IsLiteral) :
    Parser.endsAssignment n = false := by
  cases h <;> rfl

theorem Node.IsLiteral.strayInitializers {n : Node} (h : n.IsLiteral) :
    n.strayInitializers = [] := by
  cases h <;> simp [Node.strayInitializers, Node.strayInitializersIn]

theorem Node.IsLiteral.visit {n : Node} (h : n.IsLiteral) (src : Source) (file : String)
    (e : Extraction) : e.visit src file n = e := by
  cases h <;> simp [Extraction.visit, Extraction.visitAll]

/-- A token that is a literal by itself, with what follows it. -/
structure Token.Spells (t : Token) (n : Node) (rest : List Char) : Prop where
  begins : t.BeginsOperand
  reads : ∀ g, Reads (Parser.primary g) t n t.next
  literal : n.IsLiteral
  rest_eq : t.stop.rest = rest

theorem Token.is_of_kindAt {c : Char} {cs : List Char} {offset : Nat} {kind : TokenKind}
    {stop : Cursor}
    (htrivia : skipTrivia .plain false [] offset (c :: cs) = ⟨⟨offset, c :: cs⟩, false, []⟩)
    (hkind : Token.kindAt ⟨offset, c :: cs⟩ = (kind, stop, [])) :
    (Token.scan ⟨offset, c :: cs⟩).Is kind ∧ (Token.scan ⟨offset, c :: cs⟩).stop = stop := by
  unfold Token.scan
  simp only [htrivia, hkind]
  exact ⟨⟨rfl, rfl, rfl⟩, trivial⟩

theorem Token.spells_string {special : Char → Bool}
    (hspecial : ∀ c, EndsString '"' c → special c = true) (cs : List Char) (offset : Nat)
    (rest : List Char) :
    ∃ span, (Token.scan ⟨offset, '"' :: (escapeText special cs ++ '"' :: rest)⟩).Spells
      (.string span (CodeUnits.ofChars cs)) rest := by
  obtain ⟨stop, hscan⟩ := scanString_escapeText (by decide) hspecial offset cs [] [] (offset + 1) rest
  have hkind : Token.kindAt ⟨offset, '"' :: (escapeText special cs ++ '"' :: rest)⟩ =
      (.string (CodeUnits.ofChars cs), ⟨stop, rest⟩, []) := by
    unfold Token.kindAt
    dsimp only
    rw [if_neg (by decide), if_pos (by decide), hscan]
    rfl
  obtain ⟨ht, hstop⟩ := Token.is_of_kindAt rfl hkind
  exact ⟨_, ht.beginsOperand_of_string, fun g => Parser.reads_primary_string ht, .string _ _,
    congrArg Cursor.rest hstop⟩

theorem Token.spells_template {special : Char → Bool}
    (hspecial : ∀ c, EndsTemplate c → special c = true) (cs : List Char) (offset : Nat)
    (rest : List Char) :
    ∃ span raw, (Token.scan ⟨offset, '`' :: (escapeText special cs ++ '`' :: rest)⟩).Spells
      (.template span [⟨some (CodeUnits.ofChars cs), raw⟩] []) rest := by
  obtain ⟨raw, stop, hscan⟩ := scanTemplate?_escapeText hspecial cs .empty rfl (offset + 1) rest
  have hkind : Token.kindAt ⟨offset, '`' :: (escapeText special cs ++ '`' :: rest)⟩ =
      (.template ⟨some (CodeUnits.ofChars cs), raw⟩ true none, ⟨stop, rest⟩, []) := by
    unfold Token.kindAt
    dsimp only
    rw [if_neg (by decide), if_neg (by decide), if_pos (by decide), hscan]
    rfl
  obtain ⟨ht, hstop⟩ := Token.is_of_kindAt rfl hkind
  exact ⟨_, raw, ht.beginsOperand_of_template, fun g => Parser.reads_primary_template ht, .template _ _,
    congrArg Cursor.rest hstop⟩

end Syntax

/-- The two ways to name the function that translates. -/
inductive Callee where
  | function
  | method

namespace Callee

def spelling : Callee → String
  | function => "t"
  | method => "i18next.t"

def chars : Callee → List Char
  | function => ['t']
  | method => ['i', '1', '8', 'n', 'e', 'x', 't', '.', 't']

theorem toList_spelling (callee : Callee) : callee.spelling.toList = callee.chars := by
  cases callee <;> decide

def node : Callee → Node
  | function => .identifier (some ⟨0, 1⟩) "t"
  | method =>
    .member (some ⟨0, 9⟩) (.identifier (some ⟨0, 7⟩) "i18next") (.identifier (some ⟨8, 9⟩) "t") false

def variableName : Callee → String
  | function => "t"
  | method => "i18next"

open Syntax Syntax.Parser

theorem isPlainName_variableName (callee : Callee) : IsPlainName callee.variableName := by
  cases callee <;> decide

theorem is_variableName (callee : Callee) (rest : List Char) :
    (Token.scan ⟨0, callee.chars ++ '(' :: rest⟩).Is (.word callee.variableName false) := by
  -- The word ends before the dot or the parenthesis, so what follows is never looked at.
  cases callee <;> exact ⟨rfl, rfl, rfl⟩

theorem beginsOperand (callee : Callee) (rest : List Char) :
    (Token.scan ⟨0, callee.chars ++ '(' :: rest⟩).BeginsOperand :=
  (callee.is_variableName rest).beginsOperand_of_word callee.isPlainName_variableName

theorem reads_call (callee : Callee) {g : Grammar} {rest : List Char} {argument : Node} {t' : Token}
    (hbegins : (Token.scan ⟨callee.chars.length + 1, rest⟩).BeginsOperand)
    (hargument : Reads (g .assignment) (Token.scan ⟨callee.chars.length + 1, rest⟩) argument t')
    (ht' : t'.Is (.punct .parenClose)) (hend : t'.next.EndsOperand) :
    Reads (leftHandSide g) (Token.scan ⟨0, callee.chars ++ '(' :: rest⟩)
      (.call (some ⟨0, t'.stop.offset⟩) callee.node [argument]) t'.next := by
  have hvariable := callee.is_variableName rest
  have hplain := callee.isPlainName_variableName
  cases callee with
  | function =>
    have hopen : (Token.scan ⟨0, function.chars ++ '(' :: rest⟩).next.Is (.punct .parenOpen) :=
      ⟨rfl, rfl, rfl⟩
    exact reads_functionCall hvariable hplain hopen hbegins hargument ht' hend
  | method =>
    have hdot : (Token.scan ⟨0, method.chars ++ '(' :: rest⟩).next.Is (.punct .dot) :=
      ⟨rfl, rfl, rfl⟩
    have hname : (Token.scan ⟨0, method.chars ++ '(' :: rest⟩).next.next.Is (.word "t" false) :=
      ⟨rfl, rfl, rfl⟩
    have hopen : (Token.scan ⟨0, method.chars ++ '(' :: rest⟩).next.next.next.Is
        (.punct .parenOpen) := ⟨rfl, rfl, rfl⟩
    exact reads_methodCall hvariable hplain hdot (List.cons_ne_nil _ _) hname hopen hbegins hargument
      ht' hend

theorem firstToken_eq (callee : Callee) (rest : List Char) :
    firstToken (callee.chars ++ '(' :: rest) = Token.scan ⟨0, callee.chars ++ '(' :: rest⟩ := by
  cases callee <;> rfl

theorem strayInitializers_node (callee : Callee) : callee.node.strayInitializers = [] := by
  cases callee <;> simp [node, Node.strayInitializers]

theorem visit_node (callee : Callee) (src : Source) (file : String) (e : Extraction) :
    e.visit src file callee.node = e := by
  cases callee <;> simp [node, Extraction.visit]

theorem isTranslationCallee_node (callee : Callee) : isTranslationCallee callee.node = true := by
  cases callee <;> decide

theorem strayInitializers_call (callee : Callee) {argument : Node} (h : argument.IsLiteral)
    (span : Option Text.Span) : (Node.call span callee.node [argument]).strayInitializers = [] := by
  simp [Node.strayInitializers, Node.strayInitializersIn, strayInitializers_node,
    h.strayInitializers]

/-- A call with a literal as its only argument is read as it is written. -/
theorem parse_call (callee : Callee) {literal : List Char} {argument : Node}
    (h : (Token.scan ⟨callee.chars.length + 1, literal ++ [')', ';']⟩).Spells argument [')', ';']) :
    ∃ span stop, Module.parse (callee.chars ++ '(' :: (literal ++ [')', ';'])) =
      .ok ⟨[.form span .statement [.call (some ⟨0, stop⟩) callee.node [argument]]]⟩ := by
  -- Of the literal only its own token matters; the three tokens after it are known.
  generalize ht : Token.scan ⟨callee.chars.length + 1, literal ++ [')', ';']⟩ = t at h
  obtain ⟨hclose, hsemicolon, hend⟩ := Token.closes h.rest_eq
  have hliteral (g : Grammar) : Reads (leftHandSide g) t argument t.next :=
    reads_literal h.begins (h.reads g) (isArrow_of_endsAssignment h.literal.endsAssignment)
      (.inl hclose)
  have hcall (depth : Nat) : Reads (leftHandSide (Grammar.ofDepth Grammar.step (depth + 4)))
      (Token.scan ⟨0, callee.chars ++ '(' :: (literal ++ [')', ';'])⟩)
      (.call (some ⟨0, t.next.stop.offset⟩) callee.node [argument]) t.next.next := by
    have hargument := reads_assignment (depth + 1) h.begins.beginsExpression (hliteral _)
      h.literal.endsAssignment (.inl hclose)
    exact callee.reads_call (ht ▸ h.begins) (ht ▸ hargument) hclose (.inr hsemicolon)
  have hname (span : Option Text.Span) (name : String) :
      Node.call (some ⟨0, t.next.stop.offset⟩) callee.node [argument] ≠ .identifier span name := by
    intro h
    cases h
  have hbegins := callee.beginsOperand (literal ++ [')', ';'])
  rw [← firstToken_eq] at hcall hbegins
  exact ⟨_, _, Module.parse_statement hbegins.beginsExpression hcall rfl hname
    (callee.strayInitializers_call h.literal _) hsemicolon hend⟩

theorem ofString_eq (callee : Callee) {text : String} {rest : List Char}
    (htext : text.toList = callee.chars ++ rest) :
    Source.ofString text = ⟨callee.chars ++ rest⟩ := by
  unfold Source.ofString
  rw [htext]
  cases callee <;> rfl

theorem tryExtract_call (callee : Callee) {text label : String} {literal : List Char}
    {argument : Node} (htext : text.toList = callee.chars ++ '(' :: (literal ++ [')', ';']))
    (h : (Token.scan ⟨callee.chars.length + 1, literal ++ [')', ';']⟩).Spells argument [')', ';']) :
    ∃ snippet, tryExtract text label = .ok (Extraction.empty.add
      (fun key reason => ⟨key, reason, label, some 1⟩) (argumentOutcome snippet argument)) := by
  obtain ⟨span, stop, hparse⟩ := callee.parse_call h
  have hline : Source.lineAt ⟨callee.chars ++ '(' :: (literal ++ [')', ';'])⟩ 0 = 1 := by
    cases callee <;> exact Source.lineAt_zero _ _
  refine ⟨Source.snippet ⟨callee.chars ++ '(' :: (literal ++ [')', ';'])⟩ (some ⟨0, stop⟩), ?_⟩
  simp [tryExtract, callee.ofString_eq htext, parseSource, hparse, Extraction.ofModule,
    Extraction.visitAll, Extraction.visit, visit_node, h.literal.visit, Extraction.judge, outcome?,
    callOutcome?, isTranslationCallee_node, Source.line?, Node.span, hline]

end Callee

/-- A character that is always written as an escape: a backslash, a control character, or a
separator of lines or paragraphs. -/
def isUnwritable (c : Char) : Bool :=
  c == '\\' || c < ' ' || c == '\u2028' || c == '\u2029'

def inString (key : String) : String :=
  String.ofList (Syntax.escapeText (fun c => c == '"' || isUnwritable c) key.toList)

def inTemplate (key : String) : String :=
  String.ofList (Syntax.escapeText (fun c => c == '`' || c == '$' || isUnwritable c) key.toList)

theorem argumentOutcome_string (snippet : String) (span : Option Text.Span) (key : String) :
    argumentOutcome snippet (.string span (CodeUnits.ofChars key.toList)) = .accepted key := by
  have hkey : (CodeUnits.ofChars key.toList).toString? = some key := CodeUnits.toString?_ofString key
  simp [argumentOutcome, Node.stripParens, hkey]

theorem argumentOutcome_template (snippet : String) (span : Option Text.Span) (key raw : String) :
    argumentOutcome snippet (.template span [⟨some (CodeUnits.ofChars key.toList), raw⟩] []) =
      .warned key .templateWithoutExpressions := by
  have hkey : (CodeUnits.ofChars key.toList).toString? = some key := CodeUnits.toString?_ofString key
  simp [argumentOutcome, Node.stripParens, templateText, hkey]

theorem tryExtract_inString (callee : Callee) (key label : String) :
    tryExtract (callee.spelling ++ "(\"" ++ inString key ++ "\");") label =
      .ok ⟨StringSet.ofList [key], [], []⟩ := by
  have hspecial : ∀ c, Syntax.EndsString '"' c → (c == '"' || isUnwritable c) = true := by
    intro c hc
    rcases hc with rfl | rfl | rfl | rfl <;> decide
  obtain ⟨span, hspells⟩ :=
    Token.spells_string hspecial key.toList (callee.chars.length + 1) [')', ';']
  have htext : (callee.spelling ++ "(\"" ++ inString key ++ "\");").toList = callee.chars ++ '(' ::
      ('"' :: (Syntax.escapeText (fun c => c == '"' || isUnwritable c) key.toList ++ ['"']) ++
        [')', ';']) := by
    simp [inString, callee.toList_spelling]
  obtain ⟨snippet, hextract⟩ := callee.tryExtract_call htext (by simpa using hspells)
  rw [hextract, argumentOutcome_string]
  rfl

theorem tryExtract_inTemplate (callee : Callee) (key label : String) :
    tryExtract (callee.spelling ++ "(`" ++ inTemplate key ++ "`);") label =
      .ok ⟨StringSet.ofList [key], [⟨key, .templateWithoutExpressions, label, some 1⟩], []⟩ := by
  have hspecial : ∀ c, Syntax.EndsTemplate c → (c == '`' || c == '$' || isUnwritable c) = true := by
    intro c hc
    rcases hc with rfl | rfl | rfl | rfl <;> decide
  obtain ⟨span, raw, hspells⟩ :=
    Token.spells_template hspecial key.toList (callee.chars.length + 1) [')', ';']
  have htext : (callee.spelling ++ "(`" ++ inTemplate key ++ "`);").toList = callee.chars ++ '(' ::
      ('`' :: (Syntax.escapeText (fun c => c == '`' || c == '$' || isUnwritable c) key.toList ++
        ['`']) ++ [')', ';']) := by
    simp [inTemplate, callee.toList_spelling]
  obtain ⟨snippet, hextract⟩ := callee.tryExtract_call htext (by simpa using hspells)
  rw [hextract, argumentOutcome_template]
  rfl

/-- A key that is spelled as a string or as a template comes back as it was. -/
theorem tryExtract_written_key (callee : Callee) (key label : String) :
    tryExtract (callee.spelling ++ "(\"" ++ inString key ++ "\");") label =
        .ok ⟨StringSet.ofList [key], [], []⟩ ∧
      tryExtract (callee.spelling ++ "(`" ++ inTemplate key ++ "`);") label =
        .ok ⟨StringSet.ofList [key], [⟨key, .templateWithoutExpressions, label, some 1⟩], []⟩ :=
  ⟨tryExtract_inString callee key label, tryExtract_inTemplate callee key label⟩

end MessageKeys

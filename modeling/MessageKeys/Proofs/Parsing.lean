import MessageKeys.Syntax.Module

namespace MessageKeys.Syntax

open Text (Span)

namespace Parser

section Run

variable {α β : Type} (ctx : Context) (s : State)

@[simp]
theorem run_bind (x : Parser α) (f : α → Parser β) :
    (x >>= f) ctx s = Except.bind (x ctx s) fun r => f r.1 ctx r.2 := rfl

@[simp]
theorem bind_ok {ε : Type} (a : α) (f : α → Except ε β) : Except.bind (.ok a) f = f a := rfl

@[simp]
theorem run_pure (a : α) : (pure a : Parser α) ctx s = .ok (a, s) := rfl

@[simp]
theorem run_map (f : α → β) (x : Parser α) :
    (f <$> x) ctx s = Except.bind (x ctx s) fun r => .ok (f r.1, r.2) := rfl

@[simp]
theorem run_ite (c : Prop) [Decidable c] (x y : Parser α) :
    (if c then x else y) ctx s = if c then x ctx s else y ctx s := by
  split <;> rfl

@[simp]
theorem run_inside (f : Context → Context) (p : Parser α) : inside f p ctx s = p (f ctx) s := rfl

@[simp]
theorem run_token : token ctx s = .ok (s.token, s) := rfl

@[simp]
theorem run_context : context ctx s = .ok (ctx, s) := rfl

@[simp]
theorem run_here : here ctx s = .ok (s.token.start.offset, s) := rfl

@[simp]
theorem run_atPunct (p : Punctuator) : atPunct p ctx s = .ok (s.token.isPunct p, s) := rfl

@[simp]
theorem run_atAny (ps : List Punctuator) : atAny ps ctx s = .ok (ps.any s.token.isPunct, s) := rfl

@[simp]
theorem run_atWord (name : String) : atWord name ctx s = .ok (s.token.isWord name, s) := rfl

@[simp]
theorem run_atAnyWord (names : List String) :
    atAnyWord names ctx s = .ok (names.any s.token.isWord, s) := rfl

@[simp]
theorem run_atEof : atEof ctx s = .ok (s.token.isEof, s) := rfl

@[simp]
theorem run_lineBefore : lineBefore ctx s = .ok (s.token.lineBefore, s) := rfl

@[simp]
theorem run_spanFrom (start : Nat) :
    spanFrom start ctx s = .ok (some ⟨start, s.token.leading.offset⟩, s) := rfl

@[simp]
theorem run_form (start : Nat) (kind : Form) (parts : List Node) :
    form start kind parts ctx s =
      .ok (.form (some ⟨start, s.token.leading.offset⟩) kind parts, s) := rfl

@[simp]
theorem run_noteAll_nil : noteAll [] ctx s = .ok ((), s) := by
  change (if ctx.quiet then pure () else modify fun s => s : Parser Unit) ctx s = .ok ((), s)
  split <;> rfl

@[simp]
theorem run_noteWhen_false (offset : Nat) (cause : Cause) :
    noteWhen false offset cause ctx s = .ok ((), s) := rfl

end Run

/-- Whatever surrounds it, a parser gets from one token to another with this value and without any
complaint. -/
@[reducible]
def Reads {α : Type} (p : Parser α) (t : Token) (a : α) (t' : Token) : Prop :=
  ∀ ctx faults, p ctx ⟨t, faults⟩ = .ok (a, ⟨t', faults⟩)

theorem reads_attempt {α : Type} {p : Parser (Option α)} {t t' : Token} {a : α}
    (h : Reads p t (some a) t') : Reads (attempt p) t (some a) t' := by
  intro ctx faults
  simp [attempt, h]

section Repetition

variable {α : Type} {t t₁ t' : Token} {a b c : α} {bound : Nat}

theorem reads_iterateFrom_none {step : α → Parser (Option α)} (h : Reads (step a) t none t') :
    Reads (iterateFrom step (bound + 1) a) t a t' := by
  intro ctx faults
  simp [iterateFrom, h]

theorem reads_iterateFrom_some {step : α → Parser (Option α)} (h : Reads (step a) t (some b) t₁)
    (hrest : Reads (iterateFrom step bound b) t₁ c t') :
    Reads (iterateFrom step (bound + 1) a) t c t' := by
  intro ctx faults
  simp [iterateFrom, h, hrest]

theorem reads_iterate {step : α → Parser (Option α)}
    (h : Reads (iterateFrom step (t.start.rest.length + 2) a) t b t') :
    Reads (iterate step a) t b t' := by
  intro ctx faults
  simp [iterate, h]

theorem reads_iterate_once {step : α → Parser (Option α)} {u : Token}
    (h : Reads (step a) t (some b) u) (hend : Reads (step b) u none u) :
    Reads (iterate step a) t b u :=
  reads_iterate (reads_iterateFrom_some h (reads_iterateFrom_none hend))

theorem reads_many_nil {stop : Parser Bool} {item : Parser α} (hstop : Reads stop t true t) :
    Reads (many stop item) t [] t := by
  intro ctx faults
  simp [many, manyFrom, hstop]

theorem reads_many_singleton {stop : Parser Bool} {item : Parser α} (hstop : Reads stop t false t)
    (hitem : Reads item t a t') (hstop' : Reads stop t' true t') :
    Reads (many stop item) t [a] t' := by
  intro ctx faults
  simp [many, manyFrom, hstop, hitem, hstop']

end Repetition

def keywords : List String :=
  Token.reservedWords ++ restrictedWords ++
    ["abstract", "as", "async", "await", "declare", "global", "module", "namespace", "satisfies",
     "type", "using"]

def IsPlainName (name : String) : Prop := name ∉ keywords

instance (name : String) : Decidable (IsPlainName name) := inferInstanceAs (Decidable (¬ _))

theorem IsPlainName.ne {name w : String} (h : IsPlainName name) (hw : w ∈ keywords) : name ≠ w :=
  fun he => h (he ▸ hw)

theorem IsPlainName.not_isReserved {name : String} (h : IsPlainName name) :
    Token.isReserved name = false := by
  simp only [IsPlainName, keywords, List.mem_append, not_or] at h
  simpa [Token.isReserved] using h.1.1

theorem IsPlainName.notMem_restrictedWords {name : String} (h : IsPlainName name) :
    name ∉ restrictedWords := by
  simp only [IsPlainName, keywords, List.mem_append, not_or] at h
  exact h.1.2

theorem IsPlainName.literalWord?_eq_none {name : String} (h : IsPlainName name) :
    literalWord? name = none := by
  unfold literalWord?
  split
  case h_5 => rfl
  all_goals exact absurd (by decide) h

end Parser

namespace Token

/-- A token of a kind that is accepted as it is, on the line of the one before it. -/
structure Is (t : Token) (kind : TokenKind) : Prop where
  kind_eq : t.kind = kind
  sameLine : t.lineBefore = false
  noFaults : t.faults = []

/-- A token with which a name or a literal begins, and nothing else. -/
structure BeginsOperand (t : Token) : Prop where
  notPunct : ∀ p, t.isPunct p = false
  notKeyword : ∀ w ∈ Parser.keywords, t.isWord w = false
  notEof : t.isEof = false

/-- A token with which an expression without operators begins: that of an operand, a parenthesis or
the start of an element. -/
structure BeginsExpression (t : Token) : Prop where
  notPunct : ∀ p, p ≠ .parenOpen → p ≠ .less → t.isPunct p = false
  notKeyword : ∀ w ∈ Parser.keywords, t.isWord w = false
  notEof : t.isEof = false

/-- A token that ends an argument or a statement. -/
def EndsOperand (t : Token) : Prop :=
  t.Is (.punct .parenClose) ∨ t.Is (.punct .semicolon)

variable {t : Token}

theorem Is.isPunct {p : Punctuator} (h : t.Is (.punct p)) (q : Punctuator) :
    t.isPunct q = decide (q = p) := by
  simp [Token.isPunct, h.kind_eq]

theorem Is.isWord_of_punct {p : Punctuator} (h : t.Is (.punct p)) (w : String) :
    t.isWord w = false := by
  simp [Token.isWord, h.kind_eq]

theorem Is.beginsOperand_of_word {name : String} (h : t.Is (.word name false))
    (hname : Parser.IsPlainName name) : t.BeginsOperand := by
  refine ⟨fun p => ?_, fun w hw => ?_, ?_⟩
  · simp [Token.isPunct, h.kind_eq]
  · simp [Token.isWord, h.kind_eq, hname.ne hw]
  · simp [isEof, h.kind_eq]

theorem Is.beginsOperand_of_string {units : Text.CodeUnits} (h : t.Is (.string units)) :
    t.BeginsOperand := by
  constructor <;> simp [Token.isPunct, Token.isWord, isEof, h.kind_eq]

theorem Is.beginsOperand_of_template {segment : Segment} {last : Bool} {malformed : Option Fault}
    (h : t.Is (.template segment last malformed)) : t.BeginsOperand := by
  constructor <;> simp [Token.isPunct, Token.isWord, isEof, h.kind_eq]

theorem BeginsOperand.beginsExpression (h : t.BeginsOperand) : t.BeginsExpression :=
  ⟨fun p _ _ => h.notPunct p, h.notKeyword, h.notEof⟩

theorem Is.beginsExpression_of_punct {p : Punctuator} (h : t.Is (.punct p))
    (hp : p = .parenOpen ∨ p = .less) : t.BeginsExpression := by
  refine ⟨fun q hopen hless => ?_, fun w _ => h.isWord_of_punct w, ?_⟩
  · rw [h.isPunct, decide_eq_false_iff_not]
    rintro rfl
    exact hp.elim hopen hless
  · simp [isEof, h.kind_eq]

theorem BeginsExpression.kind_ne_punct (h : t.BeginsExpression) {p : Punctuator}
    (hopen : p ≠ .parenOpen) (hless : p ≠ .less) : t.kind ≠ .punct p := by
  intro hkind
  simpa [Token.isPunct, hkind] using h.notPunct p hopen hless

theorem BeginsExpression.isPlainName (h : t.BeginsExpression) {name : String}
    (hkind : t.kind = .word name false) : Parser.IsPlainName name := by
  intro hname
  simpa [Token.isWord, hkind] using h.notKeyword name hname

theorem EndsOperand.sameLine (h : t.EndsOperand) : t.lineBefore = false :=
  h.elim Is.sameLine Is.sameLine

theorem EndsOperand.isPunct (h : t.EndsOperand) {p : Punctuator} (hclose : p ≠ .parenClose)
    (hsemicolon : p ≠ .semicolon) : t.isPunct p = false := by
  apply h.elim <;> intro h <;> rw [h.isPunct] <;> simp [hclose, hsemicolon]

theorem next_leading (t : Token) : t.next.leading = t.stop := rfl

theorem closes (h : t.stop.rest = [')', ';']) :
    t.next.Is (.punct .parenClose) ∧ t.next.next.Is (.punct .semicolon) ∧
      t.next.next.next.Is .eof := by
  have hnext : t.next = scan ⟨t.stop.offset, [')', ';']⟩ :=
    congrArg (fun rest => scan ⟨t.stop.offset, rest⟩) h
  rw [hnext]
  exact ⟨⟨rfl, rfl, rfl⟩, ⟨rfl, rfl, rfl⟩, ⟨rfl, rfl, rfl⟩⟩

end Token

namespace Parser

theorem reads_bump {t : Token} {kind : TokenKind} (ht : t.Is kind)
    (hkind : ∀ fault, kind ≠ .invalid fault) : Reads bump t () t.next := by
  intro ctx faults
  obtain ⟨hk, -, hf⟩ := ht
  unfold bump
  cases kind with
  | invalid fault => exact absurd rfl (hkind fault)
  | _ =>
    simp [hk, hf]
    rfl

theorem reads_bump_punct {t : Token} {p : Punctuator} (ht : t.Is (.punct p)) :
    Reads bump t () t.next :=
  reads_bump ht nofun

theorem reads_expect {t : Token} {p : Punctuator} (ht : t.Is (.punct p)) :
    Reads (expect p) t () t.next := by
  intro ctx faults
  simp [expect, eat, ht.isPunct, reads_bump_punct ht]

theorem reads_identifier {t : Token} {name : String} (ht : t.Is (.word name false))
    (hname : IsPlainName name) : Reads identifier t (.identifier (some t.span) name) t.next := by
  intro ctx faults
  have hawait : name ≠ "await" := hname.ne (by decide)
  unfold identifier
  simp [ht.kind_eq, hname.not_isReserved, hname.notMem_restrictedWords, hawait, reads_bump ht]

theorem reads_nameOrArrow {g : Grammar} {t : Token} {name : String} (ht : t.Is (.word name false))
    (hname : IsPlainName name) (harrow : t.next.isPunct .arrow = false) (canBeArrow : Bool) :
    Reads (nameOrArrow g canBeArrow) t (.identifier (some t.span) name) t.next := by
  intro ctx faults
  have hasync := (ht.beginsOperand_of_word hname).notKeyword "async" (by decide)
  unfold nameOrArrow
  simp [reads_identifier ht hname, hasync, harrow]

theorem reads_primary_name {g : Grammar} {t : Token} {name : String} (ht : t.Is (.word name false))
    (hname : IsPlainName name) (harrow : t.next.isPunct .arrow = false) :
    Reads (primary g) t (.identifier (some t.span) name) t.next := by
  intro ctx faults
  have hasync : name ≠ "async" := hname.ne (by decide)
  have hclass : name ≠ "class" := hname.ne (by decide)
  have hfunction : name ≠ "function" := hname.ne (by decide)
  unfold primary
  simp [ht.kind_eq, hname.literalWord?_eq_none, hasync, hclass, hfunction, hname.not_isReserved,
    reads_nameOrArrow ht hname harrow]

theorem reads_primary_string {g : Grammar} {t : Token} {units : Text.CodeUnits}
    (ht : t.Is (.string units)) : Reads (primary g) t (.string (some t.span) units) t.next := by
  intro ctx faults
  unfold primary
  simp [ht.kind_eq, reads_bump ht]

theorem reads_primary_template {g : Grammar} {t : Token} {segment : Segment}
    (ht : t.Is (.template segment true none)) :
    Reads (primary g) t (.template (some t.span) [segment] []) t.next := by
  intro ctx faults
  unfold primary
  simp [ht.kind_eq, reads_bump ht, plainTemplate, template, Token.span, Token.next_leading]

section Subscripts

variable {g : Grammar} {t : Token} {start : Nat} {noComputed : Bool} {base : Node}

theorem reads_subscript?_none (ht : t.EndsOperand) (noCall : Bool) :
    Reads (subscript? g start noCall noComputed base) t none t := by
  intro ctx faults
  unfold subscript?
  apply ht.elim <;> intro ht <;> simp [ht.kind_eq]

theorem reads_subscript?_member {name : String} (ht : t.Is (.punct .dot))
    (hname : t.next.Is (.word name false)) (hbase : isOptionalChain base = false) (noCall : Bool) :
    Reads (subscript? g start noCall noComputed base) t
      (some (.member (some ⟨start, t.next.stop.offset⟩) base (.identifier (some t.next.span) name)
        false)) t.next.next := by
  intro ctx faults
  have hhash : t.next.isPunct .hash = false := by simp [Token.isPunct, hname.kind_eq]
  unfold subscript?
  simp [ht.kind_eq, reads_bump ht, memberName, hhash, anyName, hname.kind_eq, reads_bump hname,
    memberOf, hbase, Token.next_leading]

theorem reads_arguments {argument : Node} {t' : Token} (ht : t.Is (.punct .parenOpen))
    (hbegins : t.next.BeginsOperand) (hargument : Reads (g .assignment) t.next argument t')
    (ht' : t'.Is (.punct .parenClose)) : Reads (arguments g) t [argument] t'.next := by
  have hitem : Reads (commaSeparated .parenClose (expressionOrSpread g)) t.next [argument] t' := by
    apply reads_many_singleton <;> intro ctx faults
    · simp [hbegins.notPunct, hbegins.notEof]
    · simp [expressionOrSpread, eat, hbegins.notPunct, hargument, ht'.isPunct]
    · simp [ht'.isPunct]
  intro ctx faults
  simp [arguments, reads_expect ht, hitem, reads_expect ht']

theorem reads_subscript?_call {argument : Node} {t' : Token} (ht : t.Is (.punct .parenOpen))
    (hbegins : t.next.BeginsOperand) (hargument : Reads (g .assignment) t.next argument t')
    (ht' : t'.Is (.punct .parenClose)) (hbase : isOptionalChain base = false) :
    Reads (subscript? g start false noComputed base) t
      (some (.call (some ⟨start, t'.stop.offset⟩) base [argument])) t'.next := by
  intro ctx faults
  unfold subscript?
  simp [ht.kind_eq, callOf, reads_arguments ht hbegins hargument ht', hbase, withTypes,
    Token.next_leading]

theorem reads_lastCall {argument : Node} {t' : Token} (ht : t.Is (.punct .parenOpen))
    (hbegins : t.next.BeginsOperand) (hargument : Reads (g .assignment) t.next argument t')
    (ht' : t'.Is (.punct .parenClose)) (hend : t'.next.EndsOperand)
    (hbase : isOptionalChain base = false) (bound : Nat) :
    Reads (iterateFrom (subscript? g start false noComputed) (bound + 2) base) t
      (.call (some ⟨start, t'.stop.offset⟩) base [argument]) t'.next := by
  apply reads_iterateFrom_some (reads_subscript?_call ht hbegins hargument ht' hbase)
  exact reads_iterateFrom_none (reads_subscript?_none hend false)

end Subscripts

section Operands

variable {g : Grammar} {t t₁ t' : Token} {base n : Node}

theorem reads_leftHandSide (ht : t.BeginsExpression) (hless : t.isPunct .less = false)
    (hbase : Reads (primary g) t base t₁) (harrow : isArrow base = false)
    (hsubscripts : Reads (subscripts g t.start.offset false false base) t₁ n t') :
    Reads (leftHandSide g) t n t' := by
  intro ctx faults
  have hnew := ht.notKeyword "new" (by decide)
  have hsuper := ht.notKeyword "super" (by decide)
  have himport := ht.notKeyword "import" (by decide)
  unfold leftHandSide
  simp [hless, hnew, hsuper, himport, hbase, harrow, hsubscripts]

theorem reads_operand (ht : t.BeginsOperand) (hbase : Reads (primary g) t base t₁)
    (harrow : isArrow base = false)
    (hsubscripts : Reads (subscripts g t.start.offset false false base) t₁ n t') :
    Reads (leftHandSide g) t n t' :=
  reads_leftHandSide ht.beginsExpression (ht.notPunct .less) hbase harrow hsubscripts

theorem reads_literal {literal : Node} (ht : t.BeginsOperand)
    (hliteral : Reads (primary g) t literal t') (harrow : isArrow literal = false)
    (ht' : t'.EndsOperand) : Reads (leftHandSide g) t literal t' :=
  reads_operand ht hliteral harrow
    (reads_iterate (reads_iterateFrom_none (reads_subscript?_none ht' false)))

theorem reads_functionCall {name : String} {argument : Node} (ht : t.Is (.word name false))
    (hname : IsPlainName name) (hopen : t.next.Is (.punct .parenOpen))
    (hbegins : t.next.next.BeginsOperand)
    (hargument : Reads (g .assignment) t.next.next argument t')
    (ht' : t'.Is (.punct .parenClose)) (hend : t'.next.EndsOperand) :
    Reads (leftHandSide g) t
      (.call (some ⟨t.start.offset, t'.stop.offset⟩) (.identifier (some t.span) name) [argument])
      t'.next := by
  have harrow : t.next.isPunct .arrow = false := by simp [hopen.isPunct]
  apply reads_operand (ht.beginsOperand_of_word hname) (reads_primary_name ht hname harrow) rfl
  exact reads_iterate (reads_lastCall hopen hbegins hargument ht' hend rfl _)

theorem reads_methodCall {object name : String} {argument : Node} (ht : t.Is (.word object false))
    (hobject : IsPlainName object) (hdot : t.next.Is (.punct .dot))
    (hrest : t.next.start.rest ≠ []) (hname : t.next.next.Is (.word name false))
    (hopen : t.next.next.next.Is (.punct .parenOpen))
    (hbegins : t.next.next.next.next.BeginsOperand)
    (hargument : Reads (g .assignment) t.next.next.next.next argument t')
    (ht' : t'.Is (.punct .parenClose)) (hend : t'.next.EndsOperand) :
    Reads (leftHandSide g) t
      (.call (some ⟨t.start.offset, t'.stop.offset⟩)
        (.member (some ⟨t.start.offset, t.next.next.stop.offset⟩)
          (.identifier (some t.span) object) (.identifier (some t.next.next.span) name) false)
        [argument]) t'.next := by
  have harrow : t.next.isPunct .arrow = false := by simp [hdot.isPunct]
  apply reads_operand (ht.beginsOperand_of_word hobject) (reads_primary_name ht hobject harrow) rfl
  -- The member, the call and the end of the operand take three rounds.
  obtain ⟨c, cs, hcs⟩ := List.exists_cons_of_ne_nil hrest
  apply reads_iterate
  rw [hcs]
  apply reads_iterateFrom_some (reads_subscript?_member hdot hname rfl false)
  exact reads_lastCall hopen hbegins hargument ht' hend rfl cs.length

theorem reads_unary (ht : t.BeginsExpression) (h : Reads (leftHandSide g) t n t')
    (hn : isArrow n = false) (ht' : t'.EndsOperand) : Reads (unary g) t n t' := by
  intro ctx faults
  have hdelete := ht.notKeyword "delete" (by decide)
  have hvoid := ht.notKeyword "void" (by decide)
  have htypeof := ht.notKeyword "typeof" (by decide)
  have hawait := ht.notKeyword "await" (by decide)
  have hup := ht'.isPunct (p := .increment) nofun nofun
  have hdown := ht'.isPunct (p := .decrement) nofun nofun
  unfold unary
  simp [ht.notPunct, hdelete, hvoid, htypeof, hawait, h, hn, ht'.sameLine, hup, hdown]

theorem reads_binaryTail (ht' : t'.EndsOperand) : Reads (binaryTail g n) t' n t' := by
  have hstep (read : Operands) : Reads (binaryStep g read) t' none t' := by
    intro ctx faults
    unfold binaryStep
    apply ht'.elim <;> intro h <;>
      simp [h.isWord_of_punct, binaryOperator?, h.kind_eq, precedence]
  intro ctx faults
  simp [binaryTail, reads_iterate (reads_iterateFrom_none (hstep _)), reduceOperands]

theorem reads_binaryExpression (ht : t.BeginsExpression) (h : Reads (g .unary) t n t')
    (hn : isArrow n = false) (ht' : t'.EndsOperand) : Reads (binaryExpression g) t n t' := by
  intro ctx faults
  have hinstanceof := ht.notKeyword "instanceof" (by decide)
  have hin := ht.notKeyword "in" (by decide)
  have hoperator : (binaryPunctuators.filter fun p => p ∉ [.less, .plus, .minus, .slash]).any
      t.isPunct = false := by
    have hother : ∀ p ∈ binaryPunctuators.filter fun p => p ∉ [.less, .plus, .minus, .slash],
        p ≠ .parenOpen ∧ p ≠ .less := by decide
    rw [List.any_eq_false]
    intro p hp
    simp [ht.notPunct p (hother p hp).1 (hother p hp).2]
  unfold binaryExpression
  simp only [run_bind, run_token, run_context, bind_ok, hinstanceof, hin, hoperator]
  simp [h, hn, reads_binaryTail ht']

theorem isArrow_of_endsAssignment (hn : endsAssignment n = false) : isArrow n = false := by
  unfold isArrow
  split
  · exact hn
  · rfl

theorem reads_plainAssignment (ht : t.BeginsExpression) (h : Reads (g .binary) t n t')
    (hn : endsAssignment n = false) (ht' : t'.EndsOperand) : Reads (plainAssignment g) t n t' := by
  intro ctx faults
  have hyield := ht.notKeyword "yield" (by decide)
  have hquestion := ht'.isPunct (p := .question) nofun nofun
  have htail : Reads (assignmentTail g t.start.offset n) t' n t' := by
    intro ctx faults
    unfold assignmentTail
    apply ht'.elim <;> intro h <;> simp [h.isPunct, assignmentOperators]
  unfold plainAssignment
  simp [hyield, h, isArrow_of_endsAssignment hn, hquestion, hn, htail]

/-- Where an element may begin, what is read is tried first, which makes no difference. -/
theorem reads_assignmentExpression (ht : t.BeginsExpression) (h : Reads (g .binary) t n t')
    (hn : endsAssignment n = false) (ht' : t'.EndsOperand) :
    Reads (assignmentExpression g) t n t' := by
  have hplain := reads_plainAssignment ht h hn ht'
  have htried : Reads (attempt (some <$> plainAssignment g)) t (some n) t' := by
    apply reads_attempt
    intro ctx faults
    simp [hplain]
  intro ctx faults
  unfold assignmentExpression
  by_cases hless : t.isPunct .less = true
  · simp [hless, htried]
  · simp [hless, hplain]

/-- An expression with its members and calls is a whole argument or statement where one ends after
it. -/
theorem reads_assignment (depth : Nat) (ht : t.BeginsExpression)
    (h : Reads (leftHandSide (Grammar.ofDepth Grammar.step depth)) t n t')
    (hn : endsAssignment n = false) (ht' : t'.EndsOperand) :
    Reads (Grammar.ofDepth Grammar.step (depth + 3) .assignment) t n t' := by
  have harrow := isArrow_of_endsAssignment hn
  have hunary : Reads (Grammar.ofDepth Grammar.step (depth + 1) .unary) t n t' :=
    reads_unary ht h harrow ht'
  have hbinary : Reads (Grammar.ofDepth Grammar.step (depth + 2) .binary) t n t' :=
    reads_binaryExpression ht hunary harrow ht'
  exact reads_assignmentExpression ht hbinary hn ht'

theorem reads_keywordStatement? (ht : t.BeginsExpression) (declarations : Bool) (start : Nat)
    (marks : List Node) : Reads (keywordStatement? g declarations start marks) t none t := by
  intro ctx faults
  rw [keywordStatement?, run_bind, run_token, bind_ok]
  -- The match gives a parser, and can be split only before that parser is run.
  refine congrFun (congrFun (?_ : _ = (pure none : Parser (Option Node))) ctx) ⟨t, faults⟩
  dsimp only
  split
  case h_1 hkind => exact absurd hkind (ht.kind_ne_punct nofun nofun)
  case h_2 hkind => exact absurd hkind (ht.kind_ne_punct nofun nofun)
  case h_25 => rfl
  all_goals exact absurd rfl ((ht.isPlainName (by assumption)).ne (by decide))

theorem reads_wordDeclaration? (ht : t.BeginsExpression) (start : Nat) (marks : List Node) :
    Reads (wordDeclaration? g start marks) t none t := by
  intro ctx faults
  have hinterface := ht.notKeyword "interface" (by decide)
  have htype := ht.notKeyword "type" (by decide)
  have henum := ht.notKeyword "enum" (by decide)
  have hconst := ht.notKeyword "const" (by decide)
  have habstract := ht.notKeyword "abstract" (by decide)
  have hnamespace := ht.notKeyword "namespace" (by decide)
  have hmodule := ht.notKeyword "module" (by decide)
  have hglobal := ht.notKeyword "global" (by decide)
  unfold wordDeclaration?
  simp [hinterface, htype, henum, hconst, habstract, hnamespace, hmodule, hglobal]

theorem reads_expressionList (h : Reads (g .assignment) t n t') (ht' : t'.EndsOperand) :
    Reads (expressionList g) t n t' := by
  intro ctx faults
  have hcomma := ht'.isPunct (p := .comma) nofun nofun
  unfold expressionList
  simp [h, hcomma]

theorem reads_expressionStatement (h : Reads (g .expression) t n t')
    (hn : ∀ span name, n ≠ .identifier span name) (ht' : t'.Is (.punct .semicolon)) (start : Nat) :
    Reads (expressionStatement g start) t
      (.form (some ⟨start, t'.stop.offset⟩) .statement [n]) t'.next := by
  intro ctx faults
  unfold expressionStatement
  cases n with
  | identifier span name => exact absurd rfl (hn span name)
  | _ =>
    simp [freeExpression, h, eatSemicolon, eat, ht'.isPunct, reads_bump ht', statementForm,
      Token.next_leading]

theorem reads_statement (ht : t.BeginsExpression) (h : Reads (g .expression) t n t')
    (hn : ∀ span name, n ≠ .identifier span name) (ht' : t'.Is (.punct .semicolon))
    (declarations : Bool) :
    Reads (statement g declarations) t
      (.form (some ⟨t.start.offset, t'.stop.offset⟩) .statement [n]) t'.next := by
  have hmarks : Reads (decorators g) t [] t := by
    apply reads_many_nil
    intro ctx faults
    simp [ht.notPunct]
  intro ctx faults
  have hdeclare := ht.notKeyword "declare" (by decide)
  have himport := ht.notKeyword "import" (by decide)
  have hexport := ht.notKeyword "export" (by decide)
  unfold statement
  simp [hmarks, reads_keywordStatement? ht, hdeclare, reads_wordDeclaration? ht, himport, hexport,
    reads_expressionStatement h hn ht']

theorem reads_moduleItem (ht : t.BeginsExpression) (h : Reads (g (.statement true)) t n t') :
    Reads (moduleItem g) t n t' := by
  intro ctx faults
  have himport := ht.notKeyword "import" (by decide)
  have hexport := ht.notKeyword "export" (by decide)
  unfold moduleItem
  simp [ht.notPunct, himport, hexport, h]

end Operands

end Parser

namespace Module

open Syntax.Parser (Reads)

theorem reads_readItems {t t' : Token} {n : Node} (ht : t.isEof = false)
    (h : Reads (Parser.moduleItem (Grammar.ofDepth Grammar.step (depthBound t.start.rest))) t n t')
    (ht' : t'.Is .eof) : Reads readItems t [n] t' := by
  have hbegins : Reads Parser.atEof t false t := by
    intro ctx faults
    simp [ht]
  have hends : Reads Parser.atEof t' true t' := by
    intro ctx faults
    simp [Token.isEof, ht'.kind_eq]
  intro ctx faults
  simp [readItems, Parser.reads_many_singleton hbegins h hends, ht'.noFaults]

/-- A text that holds one expression and a semicolon is a module of one statement. -/
theorem parse_statement {cs : List Char} {n : Node} {t' : Token}
    (ht : (firstToken cs).BeginsExpression)
    (h : ∀ depth, Reads (Parser.leftHandSide (Grammar.ofDepth Grammar.step (depth + 4)))
      (firstToken cs) n t')
    (hn : Parser.endsAssignment n = false) (hname : ∀ span name, n ≠ .identifier span name)
    (hstray : n.strayInitializers = []) (ht' : t'.Is (.punct .semicolon))
    (hend : t'.next.Is .eof) :
    parse cs =
      .ok ⟨[.form (some ⟨(firstToken cs).start.offset, t'.stop.offset⟩) .statement [n]]⟩ := by
  have hassignment (depth : Nat) :
      Reads (Grammar.ofDepth Grammar.step (depth + 7) .assignment) (firstToken cs) n t' :=
    Parser.reads_assignment (depth + 4) ht (h depth) hn (.inr ht')
  have hexpression (depth : Nat) :
      Reads (Grammar.ofDepth Grammar.step (depth + 8) .expression) (firstToken cs) n t' :=
    Parser.reads_expressionList (hassignment depth) (.inr ht')
  have hitem (depth : Nat) :
      Reads (Parser.moduleItem (Grammar.ofDepth Grammar.step (depth + 9))) (firstToken cs)
        (.form (some ⟨(firstToken cs).start.offset, t'.stop.offset⟩) .statement [n]) t'.next :=
    Parser.reads_moduleItem ht (Parser.reads_statement ht (hexpression depth) hname ht' true)
  -- A statement and an element in its expression are nine rules deep, which the bound always allows.
  obtain ⟨depth, hdepth⟩ : ∃ depth, depthBound (firstToken cs).start.rest = depth + 9 :=
    ⟨depthBound (firstToken cs).start.rest - 9, by unfold depthBound; omega⟩
  have hitems := reads_readItems ht.notEof (hdepth ▸ hitem depth) hend
  unfold parse
  rw [hitems]
  simp [complaints, Node.strayInitializersIn, Node.strayInitializers, hstray]

end Module

end MessageKeys.Syntax

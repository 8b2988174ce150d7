import MessageKeys.Syntax.Pattern
import MessageKeys.Syntax.Scan

namespace MessageKeys.Syntax

open Text (Span)

/-- What surrounds the place that is being read. -/
structure Context where
  /-- A relational `in` may stand here. -/
  allowIn : Bool := true
  inAsync : Bool := false
  inGenerator : Bool := false
  inFunction : Bool := false
  /-- Inside a function that is no arrow, or a class member. -/
  hasNewTarget : Bool := false
  inParameters : Bool := false
  inStaticBlock : Bool := false
  /-- Inside a `declare` construct. -/
  ambient : Bool := false
  topLevel : Bool := true
  breakAllowed : Bool := false
  continueAllowed : Bool := false
  labels : List String := []
  /-- Inside a conditional expression. -/
  inConditional : Bool := false
  /-- A colon that belongs to a conditional expression is still to come. -/
  colonAhead : Bool := false
  /-- A `?` after a type here belongs to a conditional type further out. -/
  conditionalTypeBarred : Bool := false
  hasSuperClass : Bool := false
  /-- Where an arrow function may begin. -/
  arrowStart : Option Nat := none
  /-- Faults that reading can go on after are dropped. -/
  quiet : Bool := false

structure State where
  token : Token
  /-- Faults so far, the latest first. -/
  faults : List Fault

/-- A parser fails for good or returns a value. Faults that reading can go on after are collected. -/
abbrev Parser := ReaderT Context (StateT State (Except Fault))

/-- The rules of the grammar that refer to one another. -/
inductive Rule where
  | expression
  | assignment
  | binary
  | unary
  | newCallee
  | element
  | binding
  | type
  | unconditionalType
  | typeOperator
  | typeMember
  | decorator
  | function (async : Bool) (start : Nat)
  | classExpression (start : Nat) (decorators : List Node)
  | statement (declarations : Bool)
  | moduleItem
  | block

abbrev Grammar := Rule → Parser Node

namespace Grammar

def ofDepth (step : Grammar → Grammar) : (depth : Nat) → Grammar
  | 0 => fun _ _ s => .error ⟨s.token.start.offset, .nestingTooDeep⟩
  | depth + 1 => fun rule => step (ofDepth step depth) rule

end Grammar

namespace Parser

def token : Parser Token := return (← get).token

def peek : Parser Token := return (← token).next

def here : Parser Nat := return (← token).start.offset

def lastEnd : Parser Nat := return (← token).leading.offset

def context : Parser Context := read

def failAt {α : Type} (offset : Nat) (cause : Cause) : Parser α :=
  fun _ _ => .error ⟨offset, cause⟩

/-- Fails at the current token, or with the fault of a token that is none. -/
def fail {α : Type} (cause : Cause) : Parser α := do
  let t ← token
  match t.kind with
  | .invalid fault => failAt fault.offset fault.cause
  | _ => failAt t.start.offset cause

def failExpected {α : Type} (wanted : String) : Parser α := do
  fail (.expected wanted (← token).describe)

def failUnexpected {α : Type} (wanted : String) : Parser α := do
  fail (.unexpected (← token).describe wanted)

/-- Notes a fault and goes on. -/
def note (offset : Nat) (cause : Cause) : Parser Unit := do
  unless (← read).quiet do
    modify fun s => { s with faults := ⟨offset, cause⟩ :: s.faults }

def noteAll (faults : List Fault) : Parser Unit := do
  unless (← read).quiet do
    modify fun s => { s with faults := faults.reverse ++ s.faults }

def noteWhen (condition : Bool) (offset : Nat) (cause : Cause) : Parser Unit :=
  if condition then note offset cause else pure ()

def bump : Parser Unit := do
  let t ← token
  match t.kind with
  | .invalid fault => failAt fault.offset fault.cause
  | _ =>
    noteAll t.faults
    modify fun s => { s with token := t.next }

def moveTo (c : Cursor) : Parser Unit :=
  modify fun s => { s with token := Token.scan c }

def atPunct (p : Punctuator) : Parser Bool := return (← token).isPunct p

def atAny (ps : List Punctuator) : Parser Bool := do
  let t ← token
  return ps.any t.isPunct

def atWord (name : String) : Parser Bool := return (← token).isWord name

def atAnyWord (names : List String) : Parser Bool := do
  let t ← token
  return names.any t.isWord

def atEof : Parser Bool := return (← token).isEof

def lineBefore : Parser Bool := return (← token).lineBefore

def eat (p : Punctuator) : Parser Bool := do
  if ← atPunct p then bump; return true
  else return false

def eatWord (name : String) : Parser Bool := do
  if ← atWord name then bump; return true
  else return false

def expect (p : Punctuator) : Parser Unit := do
  unless ← eat p do failExpected p.spelling

def expectWord (name : String) : Parser Unit := do
  unless ← eatWord name do failExpected name

def atGreater : Parser Bool :=
  atAny [.greater, .greaterEqual, .shiftRight, .shiftRightZero, .shiftRightAssign, .shiftRightZeroAssign]

/-- Makes the first character of the current token a token of its own. -/
def splitToken (p : Punctuator) : Parser Unit :=
  modify fun s => { s with token := { s.token with kind := .punct p, stop := s.token.start.skipAscii 1 } }

/-- Accepts a `>`, also one at the front of a longer token. -/
def expectGreater : Parser Unit := do
  unless ← atGreater do failExpected ">"
  splitToken .greater
  bump

/-- Whether the current token begins with `<` in a way that can open a list of types. -/
def atLess : Parser Bool := atAny [.less, .shiftLeft]

def expectLess : Parser Unit := do
  unless ← atLess do failExpected "<"
  splitToken .less
  bump

def atStatementEnd : Parser Bool := do
  let t ← token
  return t.isPunct .semicolon || t.isPunct .braceClose || t.isEof || t.lineBefore

def eatSemicolon : Parser Bool := do
  if ← eat .semicolon then return true
  atStatementEnd

def expectSemicolon : Parser Unit := do
  unless ← eatSemicolon do failExpected ";"

def inside {α : Type} (f : Context → Context) (p : Parser α) : Parser α :=
  fun ctx => p (f ctx)

/-- Tries a parser. If it fails or gives nothing, nothing has happened. -/
def attempt {α : Type} (p : Parser (Option α)) : Parser (Option α) := fun ctx s =>
  match p { ctx with quiet := true } s with
  | .ok (some a, s') => .ok (some a, { s' with faults := s.faults })
  | _ => .ok (none, s)

def lookahead (p : Parser Bool) : Parser Bool := fun ctx s =>
  match p { ctx with quiet := true } s with
  | .ok (b, _) => .ok (b, s)
  | .error _ => .ok (false, s)

/-- Reads items until `stop` holds, at most `bound` of them; `items` are collected in reverse. -/
def manyFrom {α : Type} (stop : Parser Bool) (item : Parser α) :
    (bound : Nat) → (items : List α) → Parser (List α)
  | 0, _ => fail .nestingTooDeep
  | bound + 1, items => do
    if ← stop then return items.reverse
    else
      let a ← item
      manyFrom stop item bound (a :: items)

/-- Reads items until `stop` holds. No text has more items than characters. -/
def many {α : Type} (stop : Parser Bool) (item : Parser α) : Parser (List α) := do
  manyFrom stop item ((← token).start.rest.length + 2) []

/-- Repeats a step that changes a value until the step declines. -/
def iterateFrom {α : Type} (step : α → Parser (Option α)) : (bound : Nat) → α → Parser α
  | 0, _ => fail .nestingTooDeep
  | bound + 1, a => do
    match ← step a with
    | none => return a
    | some a => iterateFrom step bound a

def iterate {α : Type} (step : α → Parser (Option α)) (a : α) : Parser α := do
  iterateFrom step ((← token).start.rest.length + 2) a

/-- Items up to `close`, with commas between them and possibly after the last. Does not accept
`close`. -/
def commaSeparated {α : Type} (close : Punctuator) (item : Parser α) : Parser (List α) :=
  many (return (← atPunct close) || (← atEof)) do
    let a ← item
    unless ← atPunct close do expect .comma
    return a

/-- The span from `start` to the end of the last token. -/
def spanFrom (start : Nat) : Parser (Option Span) :=
  return some ⟨start, ← lastEnd⟩

def form (start : Nat) (kind : Form) (parts : List Node) : Parser Node :=
  return .form (← spanFrom start) kind parts

end Parser

end MessageKeys.Syntax

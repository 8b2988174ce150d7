import MessageKeys.Syntax.Grammar.Markup

namespace MessageKeys.Syntax.Parser

open Text (Span)

/-- Whether an expression is part of an optional chain that goes on after it. -/
def isOptionalChain : Node → Bool
  | .form _ .optionalMember _ | .form _ .optionalCall _ => true
  | .form _ .nonNull (inner :: _) => isOptionalChain inner
  | _ => false

def isArrow : Node → Bool
  | .form _ .arrow _ => true
  | _ => false

/-- Keeps type arguments beside an expression if a search finds something in them. -/
def withTypes (n : Node) (types : List Node) : Node :=
  let kept := types.filter fun t => !t.occurrences.isEmpty
  if kept.isEmpty then n else .form n.span .instantiation (n :: kept)

variable (g : Grammar)

/-- What stands between two commas inside parentheses: an expression or already a parameter. -/
structure ParenItem where
  node : Node
  isParameter : Bool

/-- The items between parentheses, and where a comma follows the last. -/
structure ParenItems where
  items : List ParenItem
  trailingComma : Option Nat

/-- The operand of a conditional expression after the question mark, and the other after the
colon. -/
def conditionalTail (start : Nat) (test : Node) : Parser Node := do
  expect .question
  let yes ← inside (fun c => { c with allowIn := true, inConditional := true, colonAhead := true })
    (g .assignment)
  expect .colon
  let no ← inside (fun c => { c with inConditional := true, colonAhead := false }) (g .assignment)
  form start .conditional [test, yes, no]

def assignmentOperators : List Punctuator :=
  [.assign, .plusAssign, .minusAssign, .starAssign, .slashAssign, .percentAssign, .powerAssign,
   .shiftLeftAssign, .shiftRightAssign, .shiftRightZeroAssign, .ampersandAssign, .barAssign,
   .caretAssign, .andAssign, .orAssign, .coalesceAssign]

/-- An assignment whose left side has been read, or that side alone. -/
def assignmentTail (start : Nat) (left : Node) : Parser Node := do
  if ← atPunct .assign then
    let (target, faults) := left.toAssignmentTarget
    noteAll faults
    unless target.isTarget do failAt left.start .invalidAssignmentTarget
    bump
    let right ← g .assignment
    form start .assign [target, right]
  else if ← atAny assignmentOperators then
    noteWhen (!left.isSimpleTarget) left.start .invalidAssignmentTarget
    unless left.isTarget do failAt left.start .invalidAssignmentTarget
    bump
    let right ← g .assignment
    form start .compoundAssign [left, right]
  else return left

/-- Type and default of a parameter whose pattern has been read as an expression. -/
def parameterTail (start : Nat) (n : Node) : Parser Node := do
  let target : Node ← match n with
    | .spread s inner => do
      let (inner, faults) := inner.toPattern .binding
      noteAll faults
      pure (.form s .restPattern [inner])
    | n => do
      let (n, faults) := n.toPattern .binding
      noteAll faults
      pure n
  let types ← typeAnnotation? g
  if ← eat .assign then
    let value ← g .assignment
    form start .defaultPattern (target :: types ++ [value])
  else form start .parameters (target :: types)

def atOptionalMark : Parser Bool := do
  let next ← peek
  return (← atPunct .question) &&
    [Punctuator.comma, .colon, .parenClose, .assign].any next.isPunct

def parenItem : Parser ParenItem := do
  let start ← here
  let modified ← eatAccessModifier
  noteWhen modified start .parameterPropertyNotAllowed
  let ctx ← context
  let next ← peek
  let itemStart ← here
  let simple := (← atIdentifier) && !(ctx.inGenerator && (← atWord "yield"))
  let dotted := (← atPunct .ellipsis) && isIdentifierToken next
  let n ← inside (fun c => { c with arrowStart := some itemStart }) do
    if dotted then
      bump
      let inner ← g .binary
      pure (Node.spread (← spanFrom itemStart) inner)
    else if simple then
      let n ← g .binary
      assignmentTail g itemStart n
    else expressionOrSpread g
  if ← atOptionalMark then
    match n with
    | .identifier .. | .spread .. =>
      bump
      return ⟨← parameterTail g itemStart n, true⟩
    | _ => failAt n.start .optionalNotAllowed
  else
    let n ← match n with
      | .spread .. => pure n
      | n => if ← atPunct .question then conditionalTail g itemStart n else pure n
    if ← atPunct .colon then return ⟨← parameterTail g itemStart n, true⟩
    else return ⟨n, false⟩

def parenItems : Parser ParenItems := do
  expect .parenOpen
  let step : List ParenItem × Option Nat → Parser (Option (List ParenItem × Option Nat)) :=
      fun (items, _) => do
    if (← atPunct .parenClose) || (← atEof) then return none
    else
      let item ← parenItem g
      let comma ← here
      if ← atPunct .parenClose then return some (item :: items, none)
      else
        expect .comma
        return some (item :: items, some comma)
  let (items, comma) ← inside (fun c => { c with allowIn := true, colonAhead := false })
    (iterate step ([], none))
  expect .parenClose
  return ⟨items.reverse, comma⟩

/-- The items between parentheses as parameters. A rest parameter comes last, without a comma. -/
def parametersOf (read : ParenItems) : List Node × List Fault :=
  let rec go : List ParenItem → List Node × List Fault
    | [] => ([], [])
    | i :: is =>
      let (rest, faults) := go is
      let misplaced (n : Node) : List Fault :=
        if is.isEmpty then
          (read.trailingComma.map fun comma => ⟨comma, .trailingCommaAfterRest⟩).toList
        else [⟨n.start, .restNotLast⟩]
      match i.node with
      | .spread s inner =>
        let (inner, more) := inner.toPattern .binding
        let n : Node := .form s .restPattern [inner]
        (n :: rest, misplaced n ++ more ++ faults)
      | .form s .restPattern parts =>
        (.form s .restPattern parts :: rest, misplaced (.form s .restPattern parts) ++ faults)
      | n =>
        if i.isParameter then (n :: rest, faults)
        else
          let (n, more) := n.toPattern .binding
          (n :: rest, more ++ faults)
  go read.items

def arrowTail (start : Nat) (async : Bool) (read : ParenItems) (types : List Node) :
    Parser Node := do
  expect .arrow
  let (ps, faults) := parametersOf read
  noteAll faults
  let body ← arrowBody g async (areSimple ps)
  form start .arrow (ps ++ [body] ++ types)

/-- An arrow function with a result type inside a conditional expression, where a colon has two
readings: it counts as one only if the conditional expression can still go on after it. -/
def arrowInConditional? (start : Nat) (async : Bool) (read : ParenItems) :
    Parser (Option Node) := do
  let colonAhead := (← context).colonAhead
  attempt do
    let types ← returnType? g
    unless ← atPunct .arrow do failExpected "=>"
    let n ← arrowTail g start async read types
    if colonAhead && !(← atPunct .colon) then return none else return some n

def arrowReturnType? : Parser (List Node) := do
  let types ← attempt do
    let types ← returnType? g
    if ← atPunct .arrow then return some types else return none
  return types.getD []

def parenthesized (start : Nat) (read : ParenItems) : Parser Node := do
  match read.items with
  | [] => failAt start .expressionExpected
  | items =>
    match items.find? fun i => i.node matches .spread .. with
    | some i => failAt i.node.start .expressionExpected
    | none => pure ()
    match read.trailingComma with
    | some comma => note comma .expressionExpected
    | none => pure ()
    match items with
    | [i] => return .paren (← spanFrom start) i.node
    | _ =>
      let first := (items.head?.map fun i => i.node.start).getD start
      return .paren (← spanFrom start) (.form (some ⟨first, (← lastEnd) - 1⟩) .sequence (items.map (·.node)))

/-- A parenthesis: an arrow function, an expression, or the arguments of a call of `async`. -/
def parenOrArrow (start : Nat) (canBeArrow : Bool) (asyncSpan : Option Span) :
    Parser Node := do
  let async := asyncSpan.isSome
  let ctx ← context
  let read ← parenItems g
  let slow ← if ctx.inConditional && (← atPunct .colon) then arrowInConditional? g start async read
    else pure none
  match slow with
  | some n => return n
  | none =>
    let types ← if !ctx.colonAhead && (← atPunct .colon) then arrowReturnType? g else pure []
    if read.items.any (·.isParameter) || !types.isEmpty || (← atPunct .arrow) then
      if ← lineBefore then fail .lineBreakNotAllowed
      unless canBeArrow do fail .arrowNotAllowed
      arrowTail g start async read types
    else match asyncSpan with
      | some s =>
        return .call (← spanFrom start) (.identifier (some s) "async") (read.items.map (·.node))
      | none => parenthesized start read

def genericAsyncArrow? (start : Nat) : Parser (Option Node) := do
  let head ← attempt do
    bump
    let (generics, _) ← typeParameters g
    let ps ← parametersIn g false
    let types ← returnType? g
    expect .arrow
    return some (ps, generics :: types)
  match head with
  | none => return none
  | some (ps, types) =>
    let body ← arrowBody g true (areSimple ps)
    return some (← form start .arrow (ps ++ [body] ++ types))

def regexp : Parser Node := do
  let t ← token
  match scanRegexp? t.start with
  | none => failAt t.start.offset .unterminatedRegexp
  | some (stop, faults) =>
    noteAll faults
    moveTo stop
    form t.start.offset .regexp []

def plainTemplate : Parser Node := do
  let (n, malformed) ← template (inside freshContext (g .expression))
  match malformed with
  | some fault => failAt fault.offset fault.cause
  | none => return n

def nameOrArrow (canBeArrow : Bool) : Parser Node := do
  let start ← here
  let t ← token
  let name ← identifier
  let next ← token
  if canBeArrow && t.isWord "async" && isIdentifierToken next && !next.lineBefore then
    if next.isWord "as" && !next.next.isPunct .arrow then return name
    else
      let p ← bindingIdentifier
      expect .arrow
      let body ← arrowBody g true true
      form start .arrow [p, body]
  else if canBeArrow && !next.lineBefore && next.isPunct .arrow then
    bump
    let body ← arrowBody g false true
    form start .arrow [name, body]
  else return name

def literalWord? : String → Option Form
  | "this" => some .this
  | "null" => some .null
  | "true" | "false" => some .boolean
  | _ => none

def primary : Parser Node := do
  let t ← token
  let start := t.start.offset
  let next := t.next
  let canBeArrow := (← context).arrowStart == some start
  match t.kind with
  | .word name false =>
    match literalWord? name with
    | some kind =>
      bump
      form start kind []
    | none =>
      if name == "function" then g (.function false start)
      else if name == "class" then g (.classExpression start [])
      else if name == "async" && next.isWord "function" && !next.lineBefore then
        bump
        g (.function true start)
      else if name == "async" && canBeArrow && next.isPunct .less then
        match ← genericAsyncArrow? g start with
        | some n => return n
        | none => nameOrArrow g canBeArrow
      else if name == "async" && canBeArrow && next.isPunct .parenOpen && !next.lineBefore then
        bump
        parenOrArrow g start canBeArrow (some t.span)
      else if Token.isReserved name then fail .expressionExpected
      else nameOrArrow g canBeArrow
  | .word name true =>
    if Token.isReserved name then fail (.escapedReservedWord name) else nameOrArrow g canBeArrow
  | .string value =>
    bump
    return .string (some t.span) value
  | .number =>
    bump
    form start .number []
  | .bigint =>
    bump
    form start .bigint []
  | .template .. => plainTemplate g
  | .punct .parenOpen => parenOrArrow g start canBeArrow none
  | .punct .bracketOpen => arrayLiteral g
  | .punct .braceOpen => objectLiteral g
  | .punct .slash | .punct .slashAssign => regexp
  | .punct .atSign =>
    let marks ← decorators g
    g (.classExpression start marks)
  | .punct .hash =>
    let n ← privateName
    noteWhen (!(← atWord "in")) start .privateNameNotAllowed
    return n
  | _ => fail .expressionExpected

def beginsExpression (t : Token) : Bool :=
  match t.kind with
  | .word name _ =>
    !Token.isReserved name ||
      ["this", "null", "true", "false", "function", "class", "new", "super", "import", "typeof", "void",
       "delete"].contains name
  | .string _ | .number | .bigint | .template .. => true
  | .punct p =>
    p ∈ [.parenOpen, .bracketOpen, .braceOpen, .plus, .minus, .bang, .tilde, .increment, .decrement,
      .slash, .slashAssign, .less, .atSign, .hash]
  | _ => false

def binaryPunctuators : List Punctuator :=
  [.less, .greater, .lessEqual, .greaterEqual, .equal, .notEqual, .same, .notSame, .plus, .minus,
   .star, .slash, .percent, .power, .shiftLeft, .shiftRight, .shiftRightZero, .ampersand, .bar,
   .caret, .and, .or, .coalesce]

def isBinaryOperator (t : Token) : Bool :=
  t.isWord "in" || t.isWord "instanceof" || binaryPunctuators.any t.isPunct

def isTemplateToken (t : Token) : Bool :=
  t.kind matches .template ..

/-- Type arguments that stand alone, if what follows them cannot be an operand. -/
def instantiationArguments? : Parser (Option Node) :=
  attempt do
    let types ← typeArguments g
    let t ← token
    if isTemplateToken t ||
        [Punctuator.less, .shiftLeft, .greater, .plus, .minus, .parenOpen].any t.isPunct then
      return none
    else if t.lineBefore || isBinaryOperator t || !beginsExpression t then return some types
    else return none

/-- A template with a tag before it; malformed escapes are allowed in it. -/
def taggedTemplate (start : Nat) (tag : Node) (types : List Node) : Parser Node := do
  let (n, _) ← template (inside freshContext (g .expression))
  noteWhen (isOptionalChain tag) start .optionalChainNotAllowed
  form start .tagged (tag :: types ++ [n])

/-- A call of an expression, optional if the chain before it is. -/
def callOf (start : Nat) (callee : Node) (types : List Node) : Parser Node := do
  let args ← arguments g
  let span ← spanFrom start
  if isOptionalChain callee then return .form span .optionalCall (callee :: args ++ types)
  else return withTypes (.call span callee args) types

/-- A member of an expression, optional if the chain before it is. -/
def memberOf (start : Nat) (object property : Node) (computed : Bool) : Parser Node := do
  let span ← spanFrom start
  if isOptionalChain object then return .form span .optionalMember [object, property]
  else return .member span object property computed

def bracketed : Parser Node := do
  expect .bracketOpen
  let n ← inside freshContext (g .expression)
  expect .bracketClose
  return n

def genericCall? (start : Nat) (noCall : Bool) (base : Node) : Parser (Option Node) :=
  attempt do
    let types ← typeArguments g
    if !noCall && (← atPunct .parenOpen) then return some (← callOf g start base [types])
    else if isTemplateToken (← token) then return some (← taggedTemplate g start base [types])
    else return none

def optionalTail (start : Nat) (base : Node) : Parser Node := do
  expect .questionDot
  let t ← token
  if t.isPunct .bracketOpen then
    let property ← bracketed g
    form start .optionalMember [base, property]
  else if t.isPunct .parenOpen then
    let args ← arguments g
    form start .optionalCall (base :: args)
  else if t.isPunct .less then
    let types ← typeArguments g
    let args ← arguments g
    form start .optionalCall (base :: args ++ [types])
  else if isTemplateToken t then fail .optionalChainNotAllowed
  else
    let property ← memberName
    form start .optionalMember [base, property]

def subscript? (start : Nat) (noCall noComputed : Bool) (base : Node) : Parser (Option Node) := do
  let t ← token
  match t.kind with
  | .punct .bang =>
    if t.lineBefore then return none
    else
      bump
      return some (← form start .nonNull [base])
  | .punct .less | .punct .shiftLeft =>
    match ← genericCall? g start noCall base with
    | some n => return some n
    | none =>
      match ← instantiationArguments? g with
      | some types => return some (← form start .instantiation [base, types])
      | none => return none
  | .punct .questionDot => return some (← optionalTail g start base)
  | .punct .bracketOpen =>
    if noComputed then return none
    else
      let property ← bracketed g
      return some (← memberOf start base property true)
  | .punct .dot =>
    bump
    let property ← memberName
    return some (← memberOf start base property false)
  | .punct .parenOpen => if noCall then return none else return some (← callOf g start base [])
  | .template .. => return some (← taggedTemplate g start base [])
  | _ => return none

def subscripts (start : Nat) (noCall noComputed : Bool) (base : Node) : Parser Node :=
  iterate (subscript? g start noCall noComputed) base

def superBase (noCall : Bool) : Parser Node := do
  let start ← here
  expectWord "super"
  let n ← form start .superRef []
  unless (← atAny [.dot, .bracketOpen]) || (!noCall && (← atPunct .parenOpen)) do fail .superNotAllowed
  return n

def importBase (noCall : Bool) : Parser Node := do
  let start ← here
  expectWord "import"
  let n ← form start .importRef []
  if ← eat .dot then
    if ← eatWord "meta" then form start .metaProperty []
    else if (← eatWord "defer") || (← eatWord "source") then
      if noCall then fail .expressionExpected
      callOf g start n []
    else failUnexpected "meta"
  else if noCall || !(← atPunct .parenOpen) then failUnexpected "."
  else callOf g start n []

def isOptionalConstructor : Node → Bool
  | .member _ object _ _ => isOptionalChain object
  | n => isOptionalChain n

/-- `new` and what it constructs. Without arguments it is a `bareNew`. -/
def newExpression : Parser Node := do
  let start ← here
  expectWord "new"
  if ← eat .dot then
    unless ← eatWord "target" do failUnexpected "target"
    let ctx ← context
    noteWhen (!ctx.hasNewTarget && !ctx.inParameters) start .superNotAllowed
    form start .metaProperty []
  else
    let callee ← g .newCallee
    if isOptionalConstructor callee then failAt callee.start .optionalChainNotAllowed
    let types ← if ← atLess then
        attempt do
          let types ← typeArguments g
          if ← atPunct .parenOpen then return some types else return none
      else pure none
    if ← atPunct .parenOpen then
      let args ← arguments g
      form start .new (callee :: args ++ types.toList)
    else form start .bareNew (callee :: types.toList)

def isBareNew : Node → Bool
  | .form _ .bareNew _ => true
  | _ => false

/-- What `new` constructs: an expression in which no call is made. -/
def newCallee : Parser Node := do
  let start ← here
  if ← atWord "new" then
    let n ← newExpression g
    if isBareNew n then return n else subscripts g start true false n
  else
    let base ← if ← atWord "super" then superBase true
      else if ← atWord "import" then importBase g true
      else primary g
    if isArrow base then return base else subscripts g start true false base

def leftHandSide : Parser Node := do
  let start ← here
  if ← atPunct .less then
    let n ← elementValue g
    if ← atPunct .less then fail .adjacentElements
    return n
  else if ← atWord "new" then
    let n ← newExpression g
    if isBareNew n then return n else subscripts g start false false n
  else
    let base ← if ← atWord "super" then superBase false
      else if ← atWord "import" then importBase g false
      else primary g
    if isArrow base then return base else subscripts g start false false base

def decorator : Parser Node := do
  expect .atSign
  let start ← here
  let base ← if ← atPunct .parenOpen then
      bump
      let n ← inside freshContext (g .expression)
      expect .parenClose
      pure n
    else identifier
  subscripts g start false true base

/-- An operand that may be missing: that is noted, and reading goes on. -/
def operand (p : Parser Node) : Parser Node := fun ctx s =>
  match p ctx s with
  | .ok r => .ok r
  | .error fault =>
    if fault.offset ≤ s.token.start.offset && !(s.token.kind matches .invalid _) then
      (do note fault.offset fault.cause; form fault.offset .missing [] : Parser Node) ctx s
    else .error fault

def awaitExpression : Parser Node := do
  let start ← here
  let ctx ← context
  expectWord "await"
  if ← atPunct .star then fail .awaitNotAllowed
  if !ctx.inAsync && ((← atStatementEnd) || (← atAny [.parenClose, .bracketClose, .comma])) then
    note start (.reservedWord "await")
    return .identifier (← spanFrom start) "await"
  else
    noteWhen (ctx.inFunction && !ctx.inAsync || ctx.inStaticBlock) start .awaitNotAllowed
    noteWhen (ctx.inParameters && ctx.inAsync) start .awaitNotAllowed
    let n ← g .unary
    form start .await [n]

def deleteFaults (n : Node) : List Fault :=
  match n.stripParens with
  | .member .. | .form _ .optionalMember _ | .form _ .missing _ => []
  | _ => [⟨n.start, .deleteName⟩]

def unary : Parser Node := do
  let t ← token
  let start := t.start.offset
  if ← atAny [.increment, .decrement] then
    bump
    let n ← g .unary
    noteAll (n.targetFaults false)
    form start .update [n]
  else if (← atAny [.plus, .minus, .bang, .tilde]) || (← atAnyWord ["delete", "void", "typeof"]) then
    bump
    let n ← operand (g .unary)
    if t.isWord "delete" then noteAll (deleteFaults n)
    form start .unary [n]
  else if ← atWord "await" then awaitExpression g
  else
    let n ← leftHandSide g
    if isArrow n || (← lineBefore) then return n
    else if ← atAny [.increment, .decrement] then
      noteAll (n.targetFaults false)
      bump
      form start .update [n]
    else return n

def precedence : Punctuator → Nat
  | .or | .coalesce => 1
  | .and => 2
  | .bar => 3
  | .caret => 4
  | .ampersand => 5
  | .equal | .notEqual | .same | .notSame => 6
  | .less | .greater | .lessEqual | .greaterEqual => 7
  | .shiftLeft | .shiftRight | .shiftRightZero => 8
  | .plus | .minus => 9
  | .star | .slash | .percent => 10
  | .power => 11
  | _ => 0

def relationalPrecedence : Nat := 7

def connectiveOf : Punctuator → Connective
  | .coalesce => .coalesce
  | .or | .and => .logical
  | _ => .other

structure Pending where
  left : Node
  op : Connective
  precedence : Nat
  rightToLeft : Bool

/-- Operators that wait, the innermost first, the operand read last, and complaints. -/
structure Operands where
  pending : List Pending
  current : Node
  faults : List Fault

def mixingFaults (op : Connective) (n : Node) : List Fault :=
  match op, n with
  | .coalesce, .form _ (.binary .logical) _ | .logical, .form _ (.binary .coalesce) _ =>
    [⟨n.start, .mixedCoalescing⟩]
  | _, _ => []

def joinOperands (p : Pending) (right : Node) : Node × List Fault :=
  let stop := (right.span.map Span.stop).getD 0
  (.form (some ⟨p.left.start, stop⟩) (.binary p.op) [p.left, right],
    mixingFaults p.op p.left ++ mixingFaults p.op right)

/-- Completes the operators that bind at least as tightly as one of the given precedence. -/
def reduceOperands (limit : Nat) : List Pending → Node → List Fault → Operands
  | [], current, faults => ⟨[], current, faults⟩
  | p :: ps, current, faults =>
    if p.precedence > limit || (p.precedence == limit && !p.rightToLeft) then
      let (n, more) := joinOperands p current
      reduceOperands limit ps n (faults ++ more)
    else ⟨p :: ps, current, faults⟩

def binaryOperator? : Parser (Option (Connective × Nat × Bool)) := do
  let t ← token
  match t.kind with
  | .punct p =>
    if precedence p == 0 then return none
    else return some (connectiveOf p, precedence p, p = .power)
  | .word name false =>
    if name == "instanceof" || (name == "in" && (← context).allowIn) then
      return some (.other, relationalPrecedence, false)
    else return none
  | _ => return none

def isUnaryForm : Node → Bool
  | .form _ .unary _ | .form _ .await _ => true
  | _ => false

/-- Reads one more operator with its right operand, or a type after `as` or `satisfies`. -/
def binaryStep (read : Operands) : Parser (Option Operands) := do
  let t ← token
  if (t.isWord "as" || t.isWord "satisfies") && !t.lineBefore then
    let r := reduceOperands relationalPrecedence read.pending read.current read.faults
    bump
    let start := r.current.start
    if t.isWord "as" && (← atWord "const") then
      bump
      return some { r with current := ← form start .asConst [r.current] }
    else
      let type ← g .type
      return some { r with current := ← form start .asType [r.current, type] }
  else match ← binaryOperator? with
    | none => return none
    | some (op, prec, rightToLeft) =>
      let r := reduceOperands prec read.pending read.current read.faults
      bump
      if rightToLeft && isUnaryForm r.current then fail .unaryExponent
      let right ← g .unary
      return some ⟨⟨r.current, op, prec, rightToLeft⟩ :: r.pending, right, r.faults⟩

def binaryTail (first : Node) : Parser Node := do
  let read ← iterate (binaryStep g) ⟨[], first, []⟩
  let r := reduceOperands 0 read.pending read.current read.faults
  noteAll r.faults
  return r.current

/-- Operands joined by binary operators. A missing first operand is noted. -/
def binaryExpression : Parser Node := do
  let t ← token
  let missing := (t.isWord "instanceof" || (t.isWord "in" && (← context).allowIn) ||
    (binaryPunctuators.filter fun p => p ∉ [.less, .plus, .minus, .slash]).any t.isPunct)
  if missing then
    note t.start.offset .expressionExpected
    binaryTail g (← form t.start.offset .missing [])
  else
    let first ← g .unary
    if isArrow first then return first else binaryTail g first

def yieldExpression : Parser Node := do
  let start ← here
  expectWord "yield"
  noteWhen (← context).inParameters start .yieldNotAllowed
  let t ← token
  if t.lineBefore || !(t.isPunct .star || beginsExpression t || t.kind matches .invalid _) then
    form start .yield []
  else
    let _ ← eat .star
    let n ← g .assignment
    form start .yield [n]

def endsAssignment : Node → Bool
  | .form _ .conditional _ | .form _ (.binary _) _ | .form _ .unary _ | .form _ .update _ | .form _ .arrow _ =>
    true
  | _ => false

def plainAssignment : Parser Node := do
  let t ← token
  let start := t.start.offset
  if (← context).inGenerator && t.isWord "yield" then yieldExpression g
  else
    let canBeArrow := isIdentifierToken t || t.isPunct .parenOpen
    let test ← inside (fun c => { c with arrowStart := if canBeArrow then some start else none })
      (g .binary)
    if isArrow test then return test
    else
      let n ← if ← atPunct .question then conditionalTail g start test else pure test
      if endsAssignment n then return n else assignmentTail g start n

/-- A generic arrow function. So that it is no element, its generics must show a comma, a bound or a
default. -/
def genericArrow? : Parser (Option Node) :=
  attempt do
    let (generics, comma) ← typeParameters g
    let told := comma || match generics.parts with
      | [p] => !p.parts.isEmpty
      | ps => !ps.isEmpty
    unless told do fail .arrowNotAllowed
    match ← plainAssignment g with
    | .form s .arrow parts => return some (.form s .arrow (parts ++ [generics]))
    | _ => return none

def assignmentExpression : Parser Node := do
  if ← atPunct .less then
    match ← attempt (some <$> plainAssignment g) with
    | some n => return n
    | none =>
      match ← genericArrow? g with
      | some n => return n
      | none => plainAssignment g
  else plainAssignment g

def expressionList : Parser Node := do
  let start ← here
  let first ← g .assignment
  if ← atPunct .comma then
    let rest ← many (return !(← atPunct .comma)) do
      bump
      g .assignment
    form start .sequence (first :: rest)
  else return first

end MessageKeys.Syntax.Parser

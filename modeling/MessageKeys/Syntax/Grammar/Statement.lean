import MessageKeys.Syntax.Grammar.Class

namespace MessageKeys.Syntax.Parser

variable (g : Grammar)

def statementForm (start : Nat) (parts : List Node) : Parser Node :=
  form start .statement parts

def freeExpression : Parser Node :=
  inside freshContext (g .expression)

def parenthesizedHead : Parser Node := do
  expect .parenOpen
  let n ← freeExpression g
  expect .parenClose
  return n

/-- Statements up to a closing brace, which a text that ends first lacks. -/
def blockItems (item : Parser Node) : Parser (List Node) := do
  let items ← many (return (← atPunct .braceClose) || (← atEof)) item
  if ← atEof then note (← here) (.expected "\x7d" "<eof>")
  else bump
  return items

def blockStatement : Parser Node := do
  let start ← here
  expect .braceOpen
  let items ← inside (fun c => { c with topLevel := false }) (blockItems (g (.statement true)))
  statementForm start items

inductive VariableKind where
  | functionScoped
  | blockScoped
  | constant
  | resource
deriving DecidableEq

def isPatternNode : Node → Bool
  | .form _ .objectPattern _ | .form _ .arrayPattern _ => true
  | _ => false

def variableDeclarator (kind : VariableKind) (inLoop : Bool) : Parser Node := do
  let start ← here
  if kind != .functionScoped && (← atWord "let") then
    failUnexpected "let is reserved in const, let, class declaration"
  let target ← g .binding
  unless isPatternNode target do
    let _ ← eat .bang
  let types ← typeAnnotation? g
  if inLoop && (← atAnyWord ["in", "of"]) then form start .declaration (target :: types)
  else if ← eat .assign then
    let value ← g .assignment
    form start .keyValue (target :: types ++ [value])
  else
    unless (← context).ambient do
      if (kind = .constant || kind = .resource) && !inLoop then note start .initializerRequired
      else if isPatternNode target then failAt start .patternInitializerRequired
    form start .declaration (target :: types)

def skipStatement : Parser Unit := do
  let _ ← attempt (some <$> g .expression)
  let _ ← many eatSemicolon bump
  return ()

def declarators (kind : VariableKind) (inLoop : Bool) : Parser (List Node) := do
  let step : List Node × Bool → Parser (Option (List Node × Bool)) := fun (ds, more) => do
    if !more then return none
    else if ← atPunct .semicolon then
      note (← lastEnd) .identifierExpected
      return none
    else
      let d ← inside (fun c => { c with allowIn := c.allowIn || kind != .functionScoped || !inLoop })
        (variableDeclarator g kind inLoop)
      return some (d :: ds, ← eat .comma)
  let (ds, _) ← iterate step ([], true)
  return ds.reverse

def variableStatement (kind : VariableKind) : Parser Node := do
  let start ← here
  bump
  let ds ← inside freshContext (declarators g kind false)
  unless ← eatSemicolon do
    note (← here) .semicolonExpected
    skipStatement g
  statementForm start ds

def beginsLet (next : Token) : Bool :=
  next.isPunct .braceOpen || next.isPunct .bracketOpen ||
    (isNameToken next && !(next.isWord "in" || next.isWord "instanceof"))

def beginsUsing (t : Token) : Bool :=
  t.isWord "using" && isIdentifierToken t.next && !t.next.lineBefore

def loopContext (c : Context) : Context :=
  { c with breakAllowed := true, continueAllowed := true }

def ifStatement : Parser Node := do
  let start ← here
  expectWord "if"
  let test ← parenthesizedHead g
  let yes ← g (.statement false)
  if ← eatWord "else" then
    let no ← g (.statement false)
    statementForm start [test, yes, no]
  else statementForm start [test, yes]

def whileStatement : Parser Node := do
  let start ← here
  expectWord "while"
  let test ← parenthesizedHead g
  let body ← inside loopContext (g (.statement false))
  statementForm start [test, body]

def doStatement : Parser Node := do
  let start ← here
  expectWord "do"
  let body ← inside loopContext (g (.statement false))
  expectWord "while"
  let test ← parenthesizedHead g
  let _ ← eatSemicolon
  statementForm start [test, body]

def countingTail : Parser (List Node) := do
  let test ← if ← eat .semicolon then pure []
    else
      let n ← freeExpression g
      expect .semicolon
      pure [n]
  let update ← if ← atPunct .parenClose then pure [] else pure [← freeExpression g]
  return test ++ update

def iterationTail : Parser (List Node) := do
  if ← eatWord "of" then return [← inside freshContext (g .assignment)]
  else
    bump
    return [← freeExpression g]

def hasInitializer : Node → Bool
  | .form _ .keyValue _ => true
  | _ => false

def hasTypeAnnotation : Node → Bool
  | .form _ .declaration (_ :: _ :: _) => true
  | _ => false

/-- What stands between the parentheses of a `for` loop that declares its variables. -/
def declaringHead (kind : VariableKind) : Parser (List Node) := do
  bump
  let ds ← inside (fun c => { c with allowIn := false }) (declarators g kind true)
  if ← atAnyWord ["of", "in"] then
    noteWhen (kind = .resource && (← atWord "in")) (← here) .declarationNotAllowed
    match ds with
    | [d] => noteWhen (hasInitializer d || hasTypeAnnotation d) d.start .loopInitializerNotAllowed
    | _ =>
      match ds.drop 1 with
      | d :: _ => note d.start .multipleBindings
      | [] => note (← here) .multipleBindings
    return ds ++ (← iterationTail g)
  else
    expect .semicolon
    return ds ++ (← countingTail g)

def expressionHead : Parser (List Node) := do
  if ← eat .semicolon then countingTail g
  else
    let n ← inside (fun c => { freshContext c with allowIn := false }) (g .expression)
    if ← atAnyWord ["of", "in"] then
      let isIn ← atWord "in"
      let (target, faults) := n.toAssignmentTarget
      noteAll faults
      unless target.isTarget do failAt n.start .invalidAssignmentTarget
      noteWhen (isIn && isPatternNode target) n.start .notAPattern
      return target :: (← iterationTail g)
    else
      expect .semicolon
      return n :: (← countingTail g)

def forStatement : Parser Node := do
  let start ← here
  expectWord "for"
  let awaiting ← eatWord "await"
  expect .parenOpen
  let t ← token
  let next := t.next
  let head ←
    if t.isWord "const" then declaringHead g .constant
    else if t.isWord "var" then declaringHead g .functionScoped
    else if t.isWord "let" && beginsLet next then declaringHead g .blockScoped
    else if beginsUsing t && !(next.isWord "of" && !next.next.isWord "of") then
      declaringHead g .resource
    else if t.isWord "await" && next.isWord "using" && beginsUsing next then
      bump
      declaringHead g .resource
    else expressionHead g
  expect .parenClose
  noteWhen (awaiting && (← context).inFunction && !(← context).inAsync) start .awaitNotAllowed
  let body ← inside loopContext (g (.statement false))
  statementForm start (head ++ [body])

def switchClause (statement : Parser Node) : Parser (Bool × Node) := do
  let start ← here
  let isDefault ← atWord "default"
  bump
  let test ← if isDefault then pure [] else pure [← freeExpression g]
  expect .colon
  let body ←
    many (return (← atAnyWord ["case", "default"]) || (← atPunct .braceClose) || (← atEof)) statement
  return (isDefault, ← statementForm start (test ++ body))

def switchStatement : Parser Node := do
  let start ← here
  expectWord "switch"
  let subject ← parenthesizedHead g
  expect .braceOpen
  let clauses ← inside (fun c => { c with breakAllowed := true, topLevel := false })
    (many (return !(← atAnyWord ["case", "default"])) (switchClause g (g (.statement true))))
  match (clauses.filter (·.1)).drop 1 with
  | (_, second) :: _ => failAt second.start .repeatedDefault
  | [] => pure ()
  expect .braceClose
  statementForm start (subject :: clauses.map (·.2))

def returnStatement : Parser Node := do
  let start ← here
  expectWord "return"
  let value ← if ← atStatementEnd then pure [] else pure [← freeExpression g]
  expectSemicolon
  noteWhen (!(← context).inFunction) start .returnNotAllowed
  statementForm start value

def throwStatement : Parser Node := do
  let start ← here
  expectWord "throw"
  if ← lineBefore then fail .lineBreakNotAllowed
  let value ← freeExpression g
  expectSemicolon
  statementForm start [value]

def catchParameter : Parser (List Node) := do
  if ← eat .parenOpen then
    let target ← g .binding
    let types ← typeAnnotation? g
    expect .parenClose
    return target :: types
  else return []

def catchClause? : Parser (List Node) := do
  if ← eatWord "catch" then
    let p ← catchParameter g
    return p ++ [← blockStatement g]
  else return []

def finallyClause? : Parser (List Node) := do
  if ← eatWord "finally" then return [← blockStatement g] else return []

def tryStatement : Parser Node := do
  let start ← here
  expectWord "try"
  let block ← blockStatement g
  let after ← here
  let handler ← catchClause? g
  let finalizer ← finallyClause? g
  noteWhen (handler.isEmpty && finalizer.isEmpty) after (.expected "catch" "")
  statementForm start (block :: handler ++ finalizer)

def jumpStatement : Parser Node := do
  let start ← here
  let isBreak ← atWord "break"
  bump
  let ctx ← context
  let label ← if ← eatSemicolon then pure none
    else
      let n ← identifier
      expectSemicolon
      match n with
      | .identifier _ name => pure (some name)
      | _ => pure none
  let unknown := label.any fun name => !ctx.labels.contains name
  if isBreak then
    if unknown then note start (.unknownLabel (label.getD ""))
    else noteWhen (!ctx.breakAllowed) start .breakNotAllowed
  else if !ctx.continueAllowed then note start .continueNotAllowed
  else noteWhen unknown start (.unknownLabel (label.getD ""))
  statementForm start []

def withStatement : Parser Node := do
  let start ← here
  note start .withNotAllowed
  expectWord "with"
  let subject ← parenthesizedHead g
  let body ← g (.statement false)
  statementForm start [subject, body]

def strayHandler : Parser Node := do
  let start ← here
  note start (.expected "try" (← token).describe)
  let _ ← catchClause? g
  let _ ← finallyClause? g
  statementForm start []

def labelled (start : Nat) (label : String) : Parser Node := do
  let ctx ← context
  noteWhen (ctx.labels.contains label) start (.repeatedLabel label)
  noteWhen (← atWord "function") (← here) .declarationNotAllowed
  let body ← inside (fun c => { c with breakAllowed := true, labels := label :: c.labels })
    (if ← atWord "function" then g (.statement true) else g (.statement false))
  statementForm start [body]

def interfaceDeclaration (start : Nat) : Parser Node := do
  expectWord "interface"
  let _ ← identifier
  let generics ← typeParameters? g
  let parents ← if ← eatWord "extends" then heritage g else pure []
  let members ← typeMembers g
  statementForm start (generics ++ parents ++ members)

def aliasDeclaration (start : Nat) : Parser Node := do
  expectWord "type"
  let _ ← identifier
  let generics ← typeParameters? g
  expect .assign
  let t ← g .type
  expectSemicolon
  statementForm start (generics ++ [t])

def enumMember : Parser Node := do
  let start ← here
  let key ← propertyName g
  match key with
  | .form _ _ _ => note start .identifierExpected
  | _ => pure ()
  let value ← if ← eat .assign then pure [← inside freshContext (g .assignment)] else pure []
  form start .keyValue (key :: value)

def enumDeclaration (start : Nat) : Parser Node := do
  expectWord "enum"
  let _ ← identifier
  expect .braceOpen
  let members ← commaSeparated .braceClose (enumMember g)
  expect .braceClose
  statementForm start members

def namespaceBody : Parser Node := do
  let start ← here
  expect .braceOpen
  let items ← inside (fun c => { c with topLevel := true }) (blockItems (g .moduleItem))
  statementForm start items

def namespaceDeclaration (start : Nat) : Parser Node := do
  entityName
  let body ← namespaceBody g
  statementForm start [body]

/-- A module declared by its path, with or without a body. -/
def ambientModule (start : Nat) : Parser Node := do
  bump
  if ← atPunct .braceOpen then statementForm start [← namespaceBody g]
  else
    expectSemicolon
    statementForm start []

/-- A declaration that begins with a word which may also be a name; nothing if it is one here. -/
def wordDeclaration? (start : Nat) (marks : List Node) : Parser (Option Node) := do
  let t ← token
  let next := t.next
  let named := isIdentifierToken next && !next.lineBefore
  if t.isWord "interface" && isIdentifierToken next && !next.lineBefore then
    return some (← interfaceDeclaration g start)
  else if t.isWord "type" && named then return some (← aliasDeclaration g start)
  else if t.isWord "enum" && isIdentifierToken next then return some (← enumDeclaration g start)
  else if t.isWord "const" && next.isWord "enum" then
    bump
    return some (← enumDeclaration g start)
  else if t.isWord "abstract" && next.isWord "class" && !next.lineBefore then
    bump
    return some (← classFrom g start marks true)
  else if t.isWord "namespace" && isIdentifierToken next then
    bump
    return some (← namespaceDeclaration g start)
  else if t.isWord "module" && !next.lineBefore && (named || next.kind matches .string _) then
    bump
    if next.kind matches .string _ then return some (← ambientModule g start)
    else return some (← namespaceDeclaration g start)
  else if t.isWord "global" && next.isPunct .braceOpen && !next.lineBefore then
    bump
    return some (← namespaceBody g)
  else return none

def variableKindOf? (t : Token) : Option VariableKind :=
  if t.isWord "var" then some .functionScoped
  else if t.isWord "const" then some .constant
  else if t.isWord "let" && beginsLet t.next then some .blockScoped
  else none

def ambientDeclaration? (start : Nat) (marks : List Node) : Parser (Option Node) := do
  let next := (← token).next
  let after := next.next
  let declares := !next.lineBefore &&
    (next.isWord "function" || next.isWord "class" || (variableKindOf? next).isSome ||
      (next.isWord "async" && after.isWord "function") || next.isWord "enum" ||
      (next.isWord "global" && after.isPunct .braceOpen) ||
      (["interface", "type", "namespace"].any next.isWord && isIdentifierToken after) ||
      (next.isWord "module" && (isIdentifierToken after || after.kind matches .string _)) ||
      (next.isWord "abstract" && after.isWord "class"))
  if declares then
    bump
    inside (fun c => { c with ambient := true }) do
      let t ← token
      if t.isWord "function" then return some (← functionFrom g start false true marks)
      else if t.isWord "async" then
        bump
        return some (← functionFrom g start true true marks)
      else if t.isWord "class" then return some (← classFrom g start marks true)
      else if t.isWord "const" && t.next.isWord "enum" then wordDeclaration? g start marks
      else match variableKindOf? t with
        | some kind => return some (← variableStatement g kind)
        | none => wordDeclaration? g start marks
  else return none

/-- An expression on its own, or a statement with a label. -/
def expressionStatement (start : Nat) : Parser Node := do
  let n ← freeExpression g
  match n with
  | .identifier _ name =>
    if ← eat .colon then labelled g start name
    else
      unless ← eatSemicolon do fail .semicolonExpected
      statementForm start [n]
  | n =>
    unless ← eatSemicolon do fail .semicolonExpected
    statementForm start [n]

/-- A statement that begins with a keyword, if the current token is one. -/
def keywordStatement? (declarations : Bool) (start : Nat) (marks : List Node) :
    Parser (Option Node) := do
  let t ← token
  let next := t.next
  match t.kind with
  | .punct .braceOpen => return some (← blockStatement g)
  | .punct .semicolon =>
    bump
    return some (← statementForm start [])
  | .word "if" false => return some (← ifStatement g)
  | .word "for" false => return some (← forStatement g)
  | .word "while" false => return some (← whileStatement g)
  | .word "do" false => return some (← doStatement g)
  | .word "switch" false => return some (← switchStatement g)
  | .word "return" false => return some (← returnStatement g)
  | .word "throw" false => return some (← throwStatement g)
  | .word "try" false => return some (← tryStatement g)
  | .word "catch" false | .word "finally" false => return some (← strayHandler g)
  | .word "with" false => return some (← withStatement g)
  | .word "break" false | .word "continue" false => return some (← jumpStatement)
  | .word "debugger" false =>
    bump
    expectSemicolon
    return some (← statementForm start [])
  | .word "function" false =>
    noteWhen (!declarations) start .declarationNotAllowed
    return some (← functionFrom g start false true marks)
  | .word "class" false =>
    noteWhen (!declarations) start .declarationNotAllowed
    return some (← classFrom g start marks true)
  | .word "async" false =>
    if next.isWord "function" && !next.lineBefore then
      bump
      noteWhen (!declarations) start .declarationNotAllowed
      return some (← functionFrom g start true true marks)
    else return none
  | .word "var" false => return some (← variableStatement g .functionScoped)
  | .word "const" false =>
    if declarations && !next.isWord "enum" then return some (← variableStatement g .constant)
    else return none
  | .word "let" false =>
    if declarations && beginsLet next then return some (← variableStatement g .blockScoped)
    else return none
  | .word "using" false =>
    if declarations && beginsUsing t then return some (← variableStatement g .resource)
    else return none
  | .word "await" false =>
    if declarations && !next.lineBefore && beginsUsing next then
      let ctx ← context
      noteWhen (ctx.inFunction && !ctx.inAsync) start .awaitNotAllowed
      bump
      return some (← variableStatement g .resource)
    else return none
  | _ => return none

def statement (declarations : Bool) : Parser Node := do
  let start ← here
  let marks ← decorators g
  inside freshContext do
    match ← keywordStatement? g declarations start marks with
    | some n => return n
    | none =>
      let declared ← if ← atWord "declare" then ambientDeclaration? g start marks
        else wordDeclaration? g start marks
      match declared with
      | some n => return n
      | none =>
        unless marks.isEmpty do failUnexpected "class"
        let t ← token
        let next := t.next
        if (t.isWord "import" && !(next.isPunct .parenOpen || next.isPunct .dot)) || t.isWord "export" then
          fail .moduleItemNotTopLevel
        expressionStatement g start

end MessageKeys.Syntax.Parser

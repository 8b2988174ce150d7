import MessageKeys.Syntax.Grammar.Statement

namespace MessageKeys.Syntax.Parser

variable (g : Grammar)

def modulePath : Parser Unit := do
  match (← token).kind with
  | .string _ => bump
  | _ => failUnexpected "a string literal"

def importAttributes? : Parser (List Node) := do
  if !(← lineBefore) && (← atAnyWord ["with", "assert"]) then
    bump
    return [← objectLiteral g]
  else return []

def fromClause (start : Nat) : Parser Node := do
  expectWord "from"
  modulePath
  let attributes ← importAttributes? g
  unless ← eatSemicolon do note (← here) .semicolonExpected
  statementForm start attributes

/-- A name that a module exports: a word or a string. Gives the word, and whether it is reserved. -/
def exportedName : Parser (Option String) := do
  match (← token).kind with
  | .word name _ =>
    bump
    return some name
  | .string _ =>
    bump
    return none
  | _ => fail .identifierExpected

/-- A name in an import or export list, with what it becomes; gives the name used inside this
module. -/
def specifier (importing : Bool) : Parser (Nat × Option String) := do
  let atEnd : Parser Bool := atAny [.comma, .braceClose]
  let renamed (first : Nat × Option String) : Parser (Nat × Option String) := do
    if ← eatWord "as" then
      let start ← here
      let name ← exportedName
      return if importing then (start, name) else first
    else return first
  let start ← here
  let first ← exportedName
  if ← atEnd then return (start, first)
  else if ← atWord "as" then
    bump
    if first == some "type" && (← atEnd) then return (start, some "as")
    else
      let second ← here
      let name ← exportedName
      if (← atEnd) || first != some "type" then return if importing then (second, name)
      else (start, first)
      else if name == some "as" then
        let third ← here
        let name ← exportedName
        return if importing then (third, name) else (start, some "as")
      else return (second, name)
  else if first == some "type" then
    let second ← here
    let name ← exportedName
    renamed (second, name)
  else return (start, first)

/-- Names between braces, without those that may not stand where they do. -/
def specifiers (importing : Bool) : Parser (List (Nat × Option String)) := do
  expect .braceOpen
  let names ← commaSeparated .braceClose (specifier importing)
  expect .braceClose
  return names

def specifierFaults (names : List (Nat × Option String)) : List Fault :=
  names.filterMap fun
    | (start, some name) => if Token.isReserved name then some ⟨start, .reservedWord name⟩ else none
    | (start, none) => some ⟨start, .identifierExpected⟩

def importEquals (start : Nat) : Parser Node := do
  expect .assign
  if (← atWord "require") && (← peek).isPunct .parenOpen then
    bump
    bump
    modulePath
    expect .parenClose
  else entityName
  expectSemicolon
  statementForm start []

def importList : Parser Unit := do
  if ← eat .star then
    expectWord "as"
    let _ ← bindingIdentifier
  else noteAll (specifierFaults (← specifiers true))

def importClause (start : Nat) : Parser Node := do
  if ← atAny [.star, .braceOpen] then
    importList
    fromClause g start
  else
    let _ ← bindingIdentifier
    if ← atPunct .assign then importEquals start
    else
      if ← eat .comma then importList
      fromClause g start

def importItem (start : Nat) : Parser Node := do
  expectWord "import"
  if (← token).kind matches .string _ then
    modulePath
    let attributes ← importAttributes? g
    unless ← eatSemicolon do note (← here) .semicolonExpected
    statementForm start attributes
  else
    let next ← peek
    let typeOnly := (← atWord "type") &&
      (next.isPunct .star || next.isPunct .braceOpen ||
        (isIdentifierToken next &&
          (!next.isWord "from" || next.next.isWord "from" || next.next.isPunct .assign)))
    if typeOnly then bump
    importClause g start

def exportAll (start : Nat) : Parser Node := do
  expect .star
  if ← eatWord "as" then
    let _ ← exportedName
  fromClause g start

def exportNames (start : Nat) : Parser Node := do
  let names ← specifiers false
  if ← atWord "from" then fromClause g start
  else
    noteAll (specifierFaults names)
    let _ ← eatSemicolon
    statementForm start []

def exportDefault (start : Nat) (outer : List Node) : Parser Node := do
  let inner ← decorators g
  let marks := outer ++ inner
  let t ← token
  let next := t.next
  let declaration ←
    if t.isWord "class" then pure (some (← classFrom g start marks false))
    else if t.isWord "abstract" && next.isWord "class" && !next.lineBefore then
      bump
      pure (some (← classFrom g start marks false))
    else if t.isWord "interface" && isIdentifierToken next then
      pure (some (← interfaceDeclaration g start))
    else if t.isWord "function" then pure (some (← functionFrom g start false false marks))
    else if t.isWord "async" && next.isWord "function" && !next.lineBefore then
      bump
      pure (some (← functionFrom g start true false marks))
    else pure none
  match declaration with
  | some n => statementForm start [n]
  | none =>
    let n ← inside freshContext (g .assignment)
    expectSemicolon
    statementForm start [n]

def exportedDeclaration (start : Nat) (outer : List Node) : Parser Node := do
  let inner ← decorators g
  let marks := outer ++ inner
  let t ← token
  let next := t.next
  let declared ←
    if t.isWord "declare" then ambientDeclaration? g start marks else wordDeclaration? g start marks
  match declared with
  | some n => return n
  | none =>
    if t.isWord "class" then classFrom g start marks true
    else if t.isWord "function" then functionFrom g start false true marks
    else if t.isWord "async" && next.isWord "function" && !next.lineBefore then
      bump
      functionFrom g start true true marks
    else match variableKindOf? t with
      | some kind => variableStatement g kind
      | none => failExpected "\x7b"

def exportItem (start : Nat) (marks : List Node) : Parser Node := do
  expectWord "export"
  let t ← token
  let next := t.next
  if t.isWord "default" then
    bump
    exportDefault g start marks
  else if t.isPunct .star then exportAll g start
  else if t.isPunct .braceOpen then exportNames g start
  else if t.isPunct .assign then
    bump
    let n ← freeExpression g
    expectSemicolon
    statementForm start [n]
  else if t.isWord "import" then
    bump
    if (← atWord "type") && isIdentifierToken (← peek) then bump
    let _ ← anyName
    importEquals start
  else if t.isWord "as" then
    bump
    expectWord "namespace"
    let _ ← identifier
    expectSemicolon
    statementForm start []
  else if t.isWord "type" && (next.isPunct .star || next.isPunct .braceOpen) then
    bump
    if next.isPunct .star then exportAll g start else exportNames g start
  else exportedDeclaration g start marks

def moduleItem : Parser Node := do
  let start ← here
  let t ← token
  if t.isPunct .atSign then
    let marked ← lookahead do
      let _ ← decorators g
      atWord "export"
    if marked then
      let marks ← decorators g
      exportItem g start marks
    else g (.statement true)
  else if t.isWord "export" then exportItem g start []
  else if t.isWord "import" && !(t.next.isPunct .parenOpen || t.next.isPunct .dot) then
    importItem g start
  else g (.statement true)

end MessageKeys.Syntax.Parser

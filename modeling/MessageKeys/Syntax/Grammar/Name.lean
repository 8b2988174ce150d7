import MessageKeys.Syntax.Grammar.Basic

namespace MessageKeys.Syntax

/-- Words that may not name a variable in a module, though they are no keywords. -/
def restrictedWords : List String :=
  ["implements", "interface", "let", "package", "private", "protected", "public", "static", "yield"]

namespace Parser

def atAnyName : Parser Bool := do
  match (← token).kind with
  | .word .. => return true
  | _ => return false

def isNameToken (t : Token) : Bool :=
  match t.kind with
  | .word .. => true
  | _ => false

/-- Whether a token is a word that can name a variable. -/
def isIdentifierToken (t : Token) : Bool :=
  match t.kind with
  | .word name _ => !Token.isReserved name
  | _ => false

def atIdentifier : Parser Bool := return isIdentifierToken (← token)

def anyName : Parser Node := do
  let t ← token
  match t.kind with
  | .word name _ =>
    bump
    return .identifier (some t.span) name
  | _ => fail .identifierExpected

def identifier : Parser Node := do
  let t ← token
  let ctx ← context
  match t.kind with
  | .word name escaped =>
    if Token.isReserved name then
      if escaped then fail (.escapedReservedWord name)
      else if name == "null" || name == "true" || name == "false" then
        note t.start.offset .identifierExpected
      else if name != "this" then fail .identifierExpected
    if name == "await" && !ctx.ambient then fail (.reservedWord name)
    noteWhen (restrictedWords.contains name) t.start.offset (.bindingNotAllowed name)
    bump
    return .identifier (some t.span) name
  | _ => fail .identifierExpected

def bindingIdentifier : Parser Node := do
  let t ← token
  let n ← identifier
  match t.kind with
  | .word name _ =>
    noteWhen (name == "eval" || name == "arguments") t.start.offset (.bindingNotAllowed name)
  | _ => pure ()
  return n

def privateName : Parser Node := do
  let start ← here
  expect .hash
  let t ← token
  match t.kind with
  | .word name _ =>
    noteWhen (t.start.offset != t.leading.offset) t.start.offset .spaceAfterHash
    bump
    return .privateName (← spanFrom start) name
  | _ => fail .identifierExpected

def memberName : Parser Node := do
  if ← atPunct .hash then privateName else anyName

variable (g : Grammar)

/-- The name of a property: a word, a string, a number or an expression in brackets. -/
def propertyName : Parser Node := do
  let t ← token
  let start := t.start.offset
  match t.kind with
  | .word .. => anyName
  | .string value =>
    bump
    return .string (some t.span) value
  | .number =>
    bump
    form start .number []
  | .bigint =>
    bump
    form start .bigint []
  | .punct .bracketOpen =>
    bump
    let key ← inside (fun c => { c with allowIn := true, colonAhead := false, inConditional := false })
      (g .assignment)
    if ← atPunct .comma then
      note start .expressionExpected
      let _ ← many (return !(← atPunct .comma)) do
        bump
        g .assignment
    expect .bracketClose
    form start .computedKey [key]
  | _ => failUnexpected "identifier, string literal, numeric literal or [ for the computed key"

def classMemberName : Parser Node := do
  if ← atPunct .hash then
    let start ← here
    let name ← privateName
    match name with
    | .privateName _ "constructor" => note start .privateConstructor
    | _ => pure ()
    return name
  else propertyName g

end Parser

end MessageKeys.Syntax

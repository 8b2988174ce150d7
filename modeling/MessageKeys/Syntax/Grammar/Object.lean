import MessageKeys.Syntax.Grammar.Function

namespace MessageKeys.Syntax.Parser

variable (g : Grammar)

def expressionOrSpread : Parser Node := do
  let start ← here
  if ← eat .ellipsis then
    let inner ← g .assignment
    return .spread (← spanFrom start) inner
  else g .assignment

/-- Items and members up to `close`; a comma after a spread that comes last is kept as a mark. -/
def literalItems (close : Punctuator) (item : Parser Node) : Parser (List Node) := do
  let items ← many (return (← atPunct close) || (← atEof)) do
    let n ← item
    match n with
    | .form _ .hole _ => return [n]
    | _ =>
      if ← atPunct close then return [n]
      else
        let comma ← here
        expect .comma
        match n with
        | .spread .. =>
          if ← atPunct close then return [n, ← form comma .trailingComma []] else return [n]
        | _ => return [n]
  return items.flatten

def arrayItem : Parser Node := do
  let start ← here
  if ← eat .comma then form start .hole []
  else expressionOrSpread g

def arrayLiteral : Parser Node := do
  let start ← here
  expect .bracketOpen
  let items ← inside freshContext (literalItems .bracketClose (arrayItem g))
  expect .bracketClose
  form start .array items

def isThisParameter : Node → Bool
  | .identifier _ "this" | .form _ .parameters (.identifier _ "this" :: _) => true
  | _ => false

/-- Complains of a getter with parameters or a setter without exactly one. -/
def checkAccessor (getter : Bool) (start : Nat) (ps : List Node) : Parser Unit := do
  let count := (ps.filter fun p => !isThisParameter p).length
  noteWhen (count != if getter then 0 else 1) start .accessorParameters
  match ps with
  | [.form _ .restPattern _] => noteWhen (!getter) start .accessorParameters
  | _ => pure ()

def methodContext (c : Context) : Context :=
  { c with hasNewTarget := true }

def method (start : Nat) (key : Node) (async generator : Bool) : Parser Node := do
  let (_, parts) ← inside methodContext (functionTail g [] async generator false)
  form start .method (key :: parts)

/-- A member after its key and the word `get`, `set` or `async` before it. -/
def prefixedMember (start : Nat) (word : String) : Parser Node := do
  let generator ← if word == "async" then eat .star else pure false
  let keyStart ← here
  let key ← propertyName g
  if word == "async" then method g start key true generator
  else
    let (ps, parts) ← inside methodContext (functionTail g [] false false false)
    checkAccessor (word == "get") keyStart ps
    form start .method (key :: parts)

def objectMember : Parser Node := do
  let start ← here
  if ← eat .ellipsis then
    let inner ← g .assignment
    return .spread (← spanFrom start) inner
  else if ← eat .star then
    let key ← propertyName g
    method g start key false true
  else
    let modified ← eatAccessModifier
    let t ← token
    let key ← propertyName g
    if ← eat .colon then
      noteWhen modified start (.modifierNotAllowed "access")
      let value ← g .assignment
      form start .keyValue [key, value]
    else if (← atPunct .parenOpen) || (← atPunct .less) then method g start key false false
    else match key, t.kind with
      | .identifier _ name, .word _ escaped =>
        if ← atPunct .question then
          note (← here) .optionalNotAllowed
          bump
        if ← atAny [.assign, .comma, .braceClose] then
          noteWhen (Token.isReserved name || restrictedWords.contains name || name == "await")
            start (.reservedWord name)
          if ← eat .assign then
            let value ← g .assignment
            form start .shorthandDefault [key, value]
          else form start .shorthand [key]
        else if ["get", "set", "async"].contains name && !escaped then prefixedMember g start name
        else failUnexpected "... , *,  (, [, :, , ?, =, an identifier, public, protected, private, readonly, <."
      | _, _ => failUnexpected "identifier"

def objectLiteral : Parser Node := do
  let start ← here
  expect .braceOpen
  let members ← inside freshContext (literalItems .braceClose (objectMember g))
  expect .braceClose
  form start .object members

def arguments : Parser (List Node) := do
  expect .parenOpen
  let args ← inside freshContext (commaSeparated .parenClose (expressionOrSpread g))
  expect .parenClose
  return args

end MessageKeys.Syntax.Parser

import MessageKeys.Syntax.Grammar.Object

namespace MessageKeys.Syntax.Parser

open Text (decodeReferences joinBreaks)

variable (g : Grammar)

def markupWord : Parser String := do
  let t ← token
  match t.kind with
  | .word .. =>
    let (name, stop) := scanMarkupName [] t.start.offset t.start.rest
    moveTo stop
    return String.ofList name
  | _ => fail .identifierExpected

/-- The name of an attribute: a word, or two with a colon between them. -/
def attributeName : Parser MarkupName := do
  let name ← markupWord
  if ← eat .colon then return .namespaced name (← markupWord)
  else return .plain name

/-- The name of an element, which may also be a chain of members. -/
def elementName : Parser MarkupName := do
  match ← attributeName with
  | .plain name =>
    if ← atPunct .dot then
      let more ← many (return !(← atPunct .dot)) do
        bump
        markupWord
      return .member (name :: more)
    else return .plain name
  | name => return name

/-- A quoted value, in which references count and backslashes do not. -/
def attributeString (quote : Char) : Parser Node := do
  let t ← token
  match scanMarkupString? quote [] (t.start.offset + 1) (t.start.rest.drop 1) with
  | none => failAt t.start.offset .unterminatedString
  | some (cs, stop) =>
    moveTo stop
    return .string (some ⟨t.start.offset, stop.offset⟩) (Text.CodeUnits.ofChars (decodeReferences cs))

/-- An element that is a value of its own: it ends before the next token. -/
def elementValue : Parser Node := do
  let n ← g .element
  bump
  return n

def attributeExpression : Parser Node := do
  let start ← here
  expect .braceOpen
  if ← atPunct .braceClose then fail .attributeValueExpected
  let inner ← inside freshContext (g .expression)
  expect .braceClose
  form start .container [inner]

def attributeValue : Parser Node := do
  let t ← token
  match t.start.rest with
  | '"' :: _ => attributeString '"'
  | '\'' :: _ => attributeString '\''
  | '\x7b' :: _ => attributeExpression g
  | '<' :: _ => elementValue g
  | _ => failUnexpected "string literal or jsx expression"

def markupAttribute : Parser Node := do
  let start ← here
  if ← eat .braceOpen then
    let dots ← here
    expect .ellipsis
    let inner ← inside freshContext (g .assignment)
    let n : Node := .spread (← spanFrom dots) inner
    expect .braceClose
    return n
  else
    let name ← attributeName
    let value ← if ← eat .assign then pure (some (← attributeValue g)) else pure none
    return .attr (← spanFrom start) name value

def markupText? (c : Cursor) : Parser (List Node × Cursor) := do
  let (cs, faults, stop) := scanMarkupText [] [] c.offset c.rest
  noteAll faults
  if cs.isEmpty then return ([], stop)
  else
    let value := String.ofList (decodeReferences (joinBreaks cs))
    return ([.text (some ⟨c.offset, stop.offset⟩) value], stop)

/-- An expression in braces between tags; stops at its closing brace. -/
def markupHole : Parser Node := do
  let start ← here
  expect .braceOpen
  if ← atPunct .braceClose then
    return .form (some ⟨start, (← token).stop.offset⟩) .emptyContainer []
  else
    let kind ← if ← eat .ellipsis then pure Form.spreadChild else pure Form.container
    let inner ← inside freshContext (g .expression)
    unless ← atPunct .braceClose do failExpected "\x7d"
    return .form (some ⟨start, (← token).stop.offset⟩) kind [inner]

/-- What has been read of the children, in reverse, and whether the closing tag has been reached. -/
structure Children where
  nodes : List Node
  closed : Bool

/-- Text and the child after it. The current token is the last of what stands before. -/
def nextChild (read : Children) : Parser (Option Children) := do
  if read.closed then return none
  else
    let (text, c) ← markupText? (← token).stop
    let nodes := text ++ read.nodes
    match c.rest with
    | [] => failAt c.offset .unterminatedMarkup
    | '\x7b' :: _ =>
      moveTo c
      return some ⟨(← markupHole g) :: nodes, false⟩
    | _ =>
      moveTo c
      if (← atPunct .less) && (← peek).isPunct .slash then return some ⟨nodes, true⟩
      else return some ⟨(← g .element) :: nodes, false⟩

/-- The children of an element and its closing tag up to the last `>`. -/
def childrenAndClosing (name : Option MarkupName) : Parser (List Node) := do
  let read ← iterate (nextChild g) ⟨[], false⟩
  let closing ← here
  bump
  bump
  let found ← if ← atGreater then pure none else pure (some (← elementName))
  unless ← atGreater do failExpected ">"
  splitToken .greater
  if found != name then failAt closing (.closingTagExpected "element")
  return read.nodes.reverse

def element : Parser Node := do
  let start ← here
  expectLess
  if ← atGreater then
    splitToken .greater
    let children ← childrenAndClosing g none
    return .form (some ⟨start, (← token).stop.offset⟩) .fragment children
  else
    let name ← elementName
    let generics ← if ← atLess then pure [← typeArguments g] else pure []
    let attributes ←
      many (return (← atPunct .slash) || (← atGreater) || (← atEof)) (markupAttribute g)
    let attributes := attributes ++ generics.filter fun n => !n.occurrences.isEmpty
    if ← eat .slash then
      unless ← atGreater do failExpected ">"
      splitToken .greater
      return .element (some ⟨start, (← token).stop.offset⟩) name attributes []
    else
      unless ← atGreater do failExpected ">"
      splitToken .greater
      let children ← childrenAndClosing g (some name)
      return .element (some ⟨start, (← token).stop.offset⟩) name attributes children

end MessageKeys.Syntax.Parser

import MessageKeys.Syntax.Grammar.Parameter

namespace MessageKeys.Syntax.Parser

/-- The stretch that follows a hole, up to the next hole or to the end of the template. -/
def templateRest (start : Nat) : Parser ScannedTemplate := do
  unless ← atPunct .braceClose do failExpected "\x7d"
  let c := (← token).start.skipAscii 1
  match scanTemplate? .plain .empty c.offset c.rest with
  | none => failAt start .unterminatedTemplate
  | some t =>
    moveTo t.stop
    return t

/-- A stretch with the hole before it. -/
structure TemplatePart where
  hole : Node
  text : ScannedTemplate

/-- A whole template whose holes are read by `hole`: its node, and the first malformed escape in
it. -/
def template (hole : Parser Node) : Parser (Node × Option Fault) := do
  let start ← here
  match (← token).kind with
  | .template first last malformed =>
    bump
    if last then return (.template (← spanFrom start) [first] [], malformed)
    else
      let step : List TemplatePart × Bool → Parser (Option (List TemplatePart × Bool))
        | (_, true) => return none
        | (parts, false) => do
          let n ← hole
          let t ← templateRest start
          return some (⟨n, t⟩ :: parts, t.last)
      let (parts, _) ← iterate step ([], false)
      let parts := parts.reverse
      let node : Node :=
        .template (← spanFrom start) (first :: parts.map (·.text.segment)) (parts.map (·.hole))
      return (node, parts.foldl (fun found p => found <|> p.text.malformed) malformed)
  | _ => failUnexpected "a template"

variable (g : Grammar)

/-- A type. Of a type only the expressions inside it matter to a search. -/
def typeForm (start : Nat) (parts : List Node) : Parser Node :=
  form start .type parts

def typeArguments : Parser Node := do
  let start ← here
  expectLess
  let args ← many (return (← atGreater) || (← atEof)) do
    let t ← g .type
    unless ← atGreater do expect .comma
    return t
  expectGreater
  noteWhen args.isEmpty start .typeArgumentsEmpty
  typeForm start args

def typeParameter : Parser Node := do
  let start ← here
  let _ ← modifiers ["const", "in", "out"] false
  let _ ← anyName
  let bound ← if ← eatWord "extends" then pure [← g .type] else pure []
  let default ← if ← eat .assign then pure [← g .type] else pure []
  typeForm start (bound ++ default)

/-- The parameters of a generic, with whether a comma follows the last. -/
def typeParameters : Parser (Node × Bool) := do
  let start ← here
  expectLess
  let step : List Node × Bool → Parser (Option (List Node × Bool)) := fun (ps, _) => do
    if (← atGreater) || (← atEof) then return none
    else
      let p ← typeParameter g
      let comma ← atPunct .comma
      unless ← atGreater do expect .comma
      return some (p :: ps, comma)
  let (ps, comma) ← iterate step ([], false)
  expectGreater
  noteWhen ps.isEmpty start .typeParametersEmpty
  return (← typeForm start ps.reverse, comma)

def typeParameters? : Parser (List Node) := do
  if ← atLess then return [(← typeParameters g).1] else return []

/-- Names joined by dots, any of which may be reserved words. -/
def entityName : Parser Unit := do
  let _ ← anyName
  let _ ← many (return !(← atPunct .dot)) do
    bump
    memberName
  return ()

def trailingTypeArguments : Parser (List Node) := do
  if !(← lineBefore) && (← atLess) then return [← typeArguments g] else return []

def typeReference : Parser Node := do
  let start ← here
  entityName
  typeForm start (← trailingTypeArguments g)

def typeQuery (importType : Parser Node) : Parser Node := do
  let start ← here
  expectWord "typeof"
  if ← atWord "import" then importType
  else
    entityName
    typeForm start (← trailingTypeArguments g)

def importType : Parser Node := do
  let start ← here
  expectWord "import"
  expect .parenOpen
  match (← token).kind with
  | .string _ => bump
  | _ => fail .stringExpected
  let options ← if ← eat .comma then
      if ← atPunct .parenClose then pure []
      else
        let o ← initializer g
        let _ ← eat .comma
        pure [o]
    else pure []
  expect .parenClose
  if ← eat .dot then entityName
  typeForm start (options ++ (← trailingTypeArguments g))

/-- A type after `=>` or `:` that may be a predicate: `x is T`, `asserts x`, `asserts x is T`. -/
def typeOrPredicate : Parser Node := do
  let start ← here
  let t ← token
  let next ← peek
  let asserts := t.isWord "asserts" && isNameToken next && !next.lineBefore
  if asserts && (!next.isWord "is" || next.next.isWord "is") then
    bump
    let _ ← anyName
    if (← atWord "is") && !(← lineBefore) then
      bump
      typeForm start [← g .type]
    else typeForm start []
  else if isNameToken t && next.isWord "is" && !next.lineBefore then
    let _ ← anyName
    bump
    typeForm start [← g .type]
  else g .type

def returnType? : Parser (List Node) := do
  if ← eat .colon then return [← typeOrPredicate g] else return []

/-- Whether a parenthesis here opens the parameters of a function type. -/
def opensFunctionType : Parser Bool :=
  lookahead do
    expect .parenOpen
    if (← atPunct .parenClose) || (← atPunct .ellipsis) then return true
    else
      let _ ← eatAccessModifier
      if ← atAnyName then bump else let _ ← g .binding
      if ← atAny [.colon, .comma, .question, .assign] then return true
      else if ← eat .parenClose then atPunct .arrow
      else return false

def functionType : Parser Node := do
  let start ← here
  let generics ← typeParameters? g
  let ps ← signatureParameters g
  expect .arrow
  let result ← typeOrPredicate g
  typeForm start (ps ++ generics ++ [result])

/-- Members of object types end with a comma, a semicolon or a line. -/
def memberEnd : Parser Unit := do
  unless ← eat .comma do expectSemicolon

def opensIndexSignature : Parser Bool :=
  lookahead do
    expect .bracketOpen
    if ← atIdentifier then
      bump
      atPunct .colon
    else return false

def indexSignature : Parser Node := do
  let start ← here
  expect .bracketOpen
  let _ ← anyName
  let key ← typeAnnotation? g
  expect .bracketClose
  let value ← typeAnnotation? g
  memberEnd
  typeForm start (key ++ value)

def signature (start : Nat) (key : List Node) : Parser Node := do
  let generics ← typeParameters? g
  let ps ← signatureParameters g
  let result ← returnType? g
  memberEnd
  typeForm start (key ++ ps ++ generics ++ result)

/-- `get x(): T` or `set x(v)`, if the current word begins one. -/
def accessorSignature? : Parser (Option Node) :=
  attempt do
    let start ← here
    let getter ← eatWord "get"
    unless getter do expectWord "set"
    let key ← propertyName g
    let ps ← signatureParameters g
    if getter != ps.isEmpty then fail .accessorParameters
    let result ← typeAnnotation? g
    memberEnd
    return some (← typeForm start (key :: ps ++ result))

def propertySignature (start : Nat) : Parser Node := do
  let key ← propertyName g
  let _ ← eat .question
  if (← atPunct .parenOpen) || (← atPunct .less) then signature g start [key]
  else
    let t ← typeAnnotation? g
    memberEnd
    typeForm start (key :: t)

def typeMember : Parser Node := do
  let start ← here
  let next ← peek
  if (← atPunct .parenOpen) || (← atPunct .less) then signature g start []
  else if (← atWord "new") && (next.isPunct .parenOpen || next.isPunct .less) then
    bump
    signature g start []
  else
    let readonly ← modifier? ["readonly"] false
    if ← opensIndexSignature then indexSignature g
    else match ← (if readonly.isNone then accessorSignature? g else pure none) with
      | some n => return n
      | none => propertySignature g start

/-- The members of an object type or an interface, between braces. -/
def typeMembers : Parser (List Node) := do
  expect .braceOpen
  let ms ← many (return (← atPunct .braceClose) || (← atEof)) (g .typeMember)
  expect .braceClose
  return ms

def opensMappedType : Parser Bool :=
  lookahead do
    expect .braceOpen
    if (← eat .plus) || (← eat .minus) then atWord "readonly"
    else
      let _ ← eatWord "readonly"
      expect .bracketOpen
      let _ ← anyName
      atWord "in"

def mappedType : Parser Node := do
  let start ← here
  expect .braceOpen
  if (← eat .plus) || (← eat .minus) then expectWord "readonly"
  else
    let _ ← eatWord "readonly"
  expect .bracketOpen
  let _ ← anyName
  expectWord "in"
  let domain ← g .type
  let name ← if ← eatWord "as" then pure [← g .type] else pure []
  expect .bracketClose
  if (← eat .plus) || (← eat .minus) then expect .question
  else
    let _ ← eat .question
  let value ← typeAnnotation? g
  unless ← eat .comma do expectSemicolon
  expect .braceClose
  typeForm start (domain :: name ++ value)

def tupleElement : Parser Node := do
  let start ← here
  let label ← attempt do
    let _ ← eat .ellipsis
    let _ ← anyName
    let _ ← eat .question
    expect .colon
    return some ()
  if label.isNone then
    let _ ← eat .ellipsis
  let t ← g .type
  let _ ← eat .question
  typeForm start [t]

def tupleType : Parser Node := do
  let start ← here
  expect .bracketOpen
  let items ← commaSeparated .bracketClose (tupleElement g)
  expect .bracketClose
  typeForm start items

def keywordTypes : List String :=
  ["void", "null", "any", "boolean", "bigint", "never", "number", "object", "string", "symbol",
   "unknown", "undefined", "intrinsic"]

def primaryType : Parser Node := do
  let t ← token
  let start := t.start.offset
  let next := t.next
  match t.kind with
  | .word name _ =>
    if name == "import" then importType g
    else if name == "typeof" then typeQuery g (importType g)
    else if name == "true" || name == "false" then
      bump
      typeForm start []
    else if name == "this" then
      bump
      if (← atWord "is") && !(← lineBefore) then
        bump
        typeForm start [← g .type]
      else typeForm start []
    else if name == "asserts" && next.isWord "this" && !next.lineBefore then typeOrPredicate g
    else if keywordTypes.contains name && !next.isPunct .dot then
      bump
      typeForm start []
    else if Token.isReserved name then failUnexpected "a type"
    else typeReference g
  | .string _ | .number | .bigint =>
    bump
    typeForm start []
  | .template .. =>
    let (n, malformed) ← template (g .type)
    match malformed with
    | some fault => failAt fault.offset fault.cause
    | none => typeForm start n.parts
  | .punct .minus =>
    bump
    match (← token).kind with
    | .number | .bigint =>
      bump
      typeForm start []
    | _ => failUnexpected "numeric literal or bigint literal"
  | .punct .braceOpen =>
    if ← opensMappedType then mappedType g else typeForm start (← typeMembers g)
  | .punct .bracketOpen => tupleType g
  | .punct .parenOpen =>
    bump
    let inner ← g .type
    expect .parenClose
    typeForm start [inner]
  | _ =>
    failUnexpected ("an identifier, void, yield, null, await, break, a string literal, " ++
      "a numeric literal, true, false, `, -, import, this, typeof, \x7b, [, (")

def postfixType : Parser Node := do
  let start ← here
  let first ← primaryType g
  iterate (fun t => do
    if !(← lineBefore) && (← eat .bracketOpen) then
      if ← eat .bracketClose then return some t
      else
        let index ← g .type
        expect .bracketClose
        return some (← typeForm start [t, index])
    else return none) first

/-- `infer T`, with a constraint unless that would swallow a conditional type. -/
def inferType : Parser Node := do
  let start ← here
  expectWord "infer"
  let _ ← anyName
  let bound ← attempt do
    expectWord "extends"
    let t ← inside (fun c => { c with conditionalTypeBarred := true }) (g .unconditionalType)
    if !(← context).conditionalTypeBarred && (← atPunct .question) then return none
    else return some t
  typeForm start bound.toList

def typeOperator : Parser Node := do
  let start ← here
  if ← atAnyWord ["keyof", "unique", "readonly"] then
    bump
    typeForm start [← g .typeOperator]
  else if ← atWord "infer" then inferType g
  else postfixType g

/-- Types joined by an operator, which may also stand before the first. -/
def joinedTypes (op : Punctuator) (item : Parser Node) : Parser Node := do
  let start ← here
  let _ ← eat op
  let first ← item
  if ← atPunct op then
    let rest ← many (return !(← atPunct op)) do
      bump
      item
    typeForm start (first :: rest)
  else return first

def unionType : Parser Node :=
  joinedTypes .bar (joinedTypes .ampersand (typeOperator g))

def unconditionalType : Parser Node := do
  if ← atPunct .less then functionType g
  else if (← atPunct .parenOpen) && (← opensFunctionType g) then functionType g
  else if ← atWord "new" then
    bump
    functionType g
  else if (← atWord "abstract") && (← peek).isWord "new" then
    bump
    bump
    functionType g
  else unionType g

/-- A type. -/
def type : Parser Node := do
  let start ← here
  let checked ← inside (fun c => { c with conditionalTypeBarred := false }) (unconditionalType g)
  if (← lineBefore) || !(← atWord "extends") then return checked
  else
    bump
    let bound ← inside (fun c => { c with conditionalTypeBarred := true }) (unconditionalType g)
    expect .question
    let yes ← g .type
    expect .colon
    let no ← g .type
    typeForm start [checked, bound, yes, no]

end MessageKeys.Syntax.Parser

import MessageKeys.Syntax.Grammar.Binding

namespace MessageKeys.Syntax.Parser

/-- Whether the next token lets the current word be a modifier of it. -/
def canFollowModifier (t : Token) : Bool :=
  !t.lineBefore && (isNameToken t || match t.kind with
    | .string _ | .number | .bigint => true
    | .punct p => p ∈ [.bracketOpen, .braceOpen, .star, .ellipsis, .hash]
    | _ => false)

/-- One of the allowed modifiers, if the current word is one and modifies what follows. -/
def modifier? (allowed : List String) (stopAtStaticBlock : Bool) : Parser (Option String) := do
  match (← token).kind with
  | .word name false =>
    let next ← peek
    if allowed.contains name && canFollowModifier next &&
        !(stopAtStaticBlock && name == "static" && next.isPunct .braceOpen) then
      bump
      return some name
    else return none
  | _ => return none

def modifiers (allowed : List String) (stopAtStaticBlock : Bool) : Parser (List String) :=
  iterate (fun ms => return (← modifier? allowed stopAtStaticBlock).map (· :: ms)) []

/-- Accepts an access or `readonly` modifier before a member or parameter. -/
def eatAccessModifier : Parser Bool := do
  let next ← peek
  if (← atAnyWord ["public", "protected", "private", "readonly"]) &&
      (isNameToken next || next.isPunct .braceOpen || next.isPunct .bracketOpen) then
    return (← modifier? ["public", "protected", "private", "readonly"] false).isSome
  else return false

variable (g : Grammar)

def typeAnnotation? : Parser (List Node) := do
  if ← eat .colon then return [← g .type] else return []

def decorators : Parser (List Node) :=
  many (return !(← atPunct .atSign)) (g .decorator)

/-- A parameter without its decorators: pattern, optional mark, type and default. -/
def parameterPattern : Parser Node := do
  let start ← here
  let target ← g .binding
  let ctx ← context
  let optional ← eat .question
  match target with
  | .identifier .. => pure ()
  | _ => noteWhen (optional && !ctx.ambient) start .optionalNotAllowed
  let types ← typeAnnotation? g
  if ← eat .assign then
    noteWhen optional start .optionalNotAllowed
    let value ← initializer g
    noteWhen ctx.ambient start .initializerRequired
    form start .defaultPattern (target :: types ++ [value])
  else if types.isEmpty then return target
  else form start .parameters (target :: types)

def restParameter : Parser Node := do
  let start ← here
  expect .ellipsis
  let target ← g .binding
  let value ← if ← eat .assign then
      note start .initializerRequired
      pure [← initializer g]
    else pure []
  let types ← typeAnnotation? g
  if ← eat .question then note start .optionalNotAllowed
  let rest ← form start .restPattern (target :: value ++ types)
  if ← atPunct .comma then
    if (← peek).isPunct .parenClose then note (← here) .trailingCommaAfterRest
    else note start .restNotLast
  return rest

/-- A parameter of a function. Access modifiers belong to constructors only. -/
def parameter (ofConstructor : Bool) : Parser Node := do
  let start ← here
  let marks ← decorators g
  if ← atPunct .ellipsis then
    let rest ← restParameter g
    if marks.isEmpty then return rest else form start .parameters (marks ++ [rest])
  else
    let modified ← if ofConstructor then
        pure !(← modifiers ["public", "protected", "private", "readonly", "override"] false).isEmpty
      else eatAccessModifier
    noteWhen (modified && !ofConstructor) start .parameterPropertyNotAllowed
    let p ← parameterPattern g
    if marks.isEmpty then return p else form start .parameters (marks ++ [p])

def parametersIn (ofConstructor : Bool) : Parser (List Node) := do
  expect .parenOpen
  let ps ← inside (fun c => { c with inParameters := true })
    (commaSeparated .parenClose (parameter g ofConstructor))
  expect .parenClose
  return ps

def areSimple (ps : List Node) : Bool :=
  ps.all fun
    | .identifier .. => true
    | .form _ .parameters (.identifier .. :: _) => true
    | _ => false

def signatureParameters : Parser (List Node) := do
  let ps ← parametersIn g false
  if ps.any fun | .form _ .defaultPattern _ => true | _ => false then
    failUnexpected "an identifier, [ for an array pattern, \x7b for an object patter or ... for a rest pattern"
  else return ps

end MessageKeys.Syntax.Parser

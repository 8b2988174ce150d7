import MessageKeys.Syntax.Grammar.Type

namespace MessageKeys.Syntax.Parser

def bodyContext (async generator arrow : Bool) (c : Context) : Context :=
  { c with
    inAsync := async
    inGenerator := generator
    inFunction := true
    hasNewTarget := c.hasNewTarget || !arrow
    inParameters := false
    inStaticBlock := false
    topLevel := false
    breakAllowed := false
    continueAllowed := false
    labels := [] }

def freshContext (c : Context) : Context :=
  { c with allowIn := true, colonAhead := false, inConditional := false }

variable (g : Grammar)

def asksForStrictness : Node → Bool
  | .form _ _ (.form _ .statement [.string _ units] :: _) =>
    units == Text.CodeUnits.ofString "use strict"
  | _ => false

def functionBlock (async generator arrow simple : Bool) : Parser Node := do
  let start ← here
  let body ← inside (freshContext ∘ bodyContext async generator arrow) (g .block)
  noteWhen (!simple && asksForStrictness body) start .useStrictNotAllowed
  return body

/-- A body in braces, or nothing where a declaration ends without one. -/
def functionBlock? (async generator simple : Bool) : Parser (List Node) := do
  let start ← here
  if ← atPunct .braceOpen then
    noteWhen (← context).ambient start .implementationNotAllowed
    return [← functionBlock g async generator false simple]
  else if ← eatSemicolon then return []
  else failExpected "\x7b"

/-- Generics, parameters, result type and body, in the order of visit. -/
def functionTail (decorators : List Node) (async generator : Bool) (ofConstructor : Bool) :
    Parser (List Node × List Node) := do
  let generics ← typeParameters? g
  let ps ← inside (fun c => freshContext { c with inAsync := async, inGenerator := generator })
    (parametersIn g ofConstructor)
  let result ← inside freshContext (returnType? g)
  let body ← functionBlock? g async generator (areSimple ps)
  return (ps, ps ++ decorators ++ body ++ generics ++ result)

/-- The body of an arrow function: a block or an expression. -/
def arrowBody (async simple : Bool) : Parser Node := do
  if ← atPunct .braceOpen then functionBlock g async false true simple
  else inside (bodyContext async false true) (g .assignment)

/-- A function after the word `function` has been reached. Declarations need a name. -/
def functionFrom (start : Nat) (async named : Bool) (decorators : List Node) : Parser Node := do
  expectWord "function"
  let generator ← eat .star
  let name ←
    if named then pure [← bindingIdentifier]
    else if ← atIdentifier then
      pure [← inside (fun c => { c with inAsync := async, inGenerator := generator }) bindingIdentifier]
    else pure []
  let (_, parts) ← functionTail g decorators async generator false
  form start .function (name ++ parts)

end MessageKeys.Syntax.Parser

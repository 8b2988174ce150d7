import MessageKeys.Syntax.Grammar.Name

namespace MessageKeys.Syntax.Parser

variable (g : Grammar)

def initializer : Parser Node :=
  inside (fun c => { c with allowIn := true, colonAhead := false, inConditional := false }) (g .assignment)

def bindingElement : Parser Node := do
  let start ← here
  let target ← g .binding
  if ← eat .assign then form start .defaultPattern [target, ← initializer g]
  else return target

/-- `...` and a pattern, which only a closing token may follow. -/
def bindingRest (close : Punctuator) : Parser Node := do
  let start ← here
  expect .ellipsis
  let target ← g .binding
  let rest ← form start .restPattern [target]
  if ← atPunct .comma then
    if (← peek).isPunct close then note (← here) .trailingCommaAfterRest
    else note start .restNotLast
  return rest

def arrayBinding : Parser Node := do
  let start ← here
  expect .bracketOpen
  let items ← many (return (← atPunct .bracketClose) || (← atEof)) do
    if ← atPunct .comma then
      let hole ← here
      bump
      form hole .hole []
    else
      let item ← if ← atPunct .ellipsis then bindingRest g .bracketClose else bindingElement g
      unless ← atPunct .bracketClose do expect .comma
      return item
  expect .bracketClose
  form start .arrayPattern items

def objectBindingMember : Parser Node := do
  if ← atPunct .ellipsis then bindingRest g .braceClose
  else
    let start ← here
    let reserved := match (← token).kind with
      | .word name _ => Token.isReserved name || restrictedWords.contains name
      | _ => false
    let key ← propertyName g
    if ← eat .colon then form start .keyValue [key, ← bindingElement g]
    else match key with
      | .identifier _ name =>
        if ← eat .assign then form start .defaultPattern [key, ← initializer g]
        else
          noteWhen (reserved || name == "await") start (.reservedWord name)
          form start .shorthand [key]
      | _ => failUnexpected "an identifier"

def objectBinding : Parser Node := do
  let start ← here
  expect .braceOpen
  let members ← commaSeparated .braceClose (objectBindingMember g)
  expect .braceClose
  form start .objectPattern members

def binding : Parser Node := do
  match (← token).kind with
  | .word .. => bindingIdentifier
  | .punct .bracketOpen => arrayBinding g
  | .punct .braceOpen => objectBinding g
  | _ => failUnexpected "yield, an identifier, [ or \x7b"

end MessageKeys.Syntax.Parser

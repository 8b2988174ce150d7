import MessageKeys.Keys.Reason
import MessageKeys.Syntax.Node
import MessageKeys.Text.Source

namespace MessageKeys

open Syntax (Node Segment)
open Text (Source CodeUnits)

/-- A key that is accepted, accepted with a warning, or a text that is rejected. -/
inductive Outcome where
  | accepted (key : String)
  | warned (key : String) (reason : Reason)
  | rejected (key : String) (reason : Reason)
deriving Repr, DecidableEq

namespace Outcome

def acceptedKey? : Outcome → Option String
  | accepted key | warned key _ => some key
  | rejected _ _ => none

def reason? : Outcome → Option Reason
  | accepted _ => none
  | warned _ reason | rejected _ reason => some reason

end Outcome

/-- Does calling this mean to translate? Parentheses around the object of a member access count. -/
def isTranslationCallee (callee : Node) : Bool :=
  match callee.stripParens with
  | .identifier _ name => name == "t"
  | .member _ (.identifier _ object) (.identifier _ property) false =>
    object == "i18next" && property == "t"
  | _ => false

/-- The text of a template: of each segment what its escapes mean, or as written where that is no
text. -/
def templateText (segments : List Segment) : String :=
  String.join (segments.map fun s => (s.cooked.bind CodeUnits.toString?).getD s.raw)

/-- The verdict on a translation call with this first argument, where `snippet` is the whole
call. -/
def argumentOutcome (snippet : String) (argument : Node) : Outcome :=
  match argument.stripParens with
  | .string _ units =>
    match units.toString? with
    | some key => .accepted key
    | none => .rejected snippet .unsupportedArgument
  | .template _ segments [] => .warned (templateText segments) .templateWithoutExpressions
  | .template _ _ _ => .rejected snippet .templateWithExpressions
  | _ => .rejected snippet .unsupportedArgument

/-- The verdict on a call; none if it does not translate or has no argument. -/
def callOutcome? (snippet : String) (callee : Node) (arguments : List Node) : Option Outcome :=
  if isTranslationCallee callee then
    arguments.head?.map (argumentOutcome snippet)
  else none

/-- The key that the first `i18nKey` attribute spells out. -/
def explicitKey? (attributes : List Node) : Option String :=
  match attributes.find? (fun | .attr _ name _ => name == .plain "i18nKey" | _ => false) with
  | some (.attr _ _ (some (.string _ units))) => units.toString?
  | _ => none

def simpleText? : List Node → Option String
  | [.text _ value] =>
    let trimmed := Text.trim value.toList
    if trimmed.isEmpty then none else some (String.ofList trimmed)
  | _ => none

/-- The verdict on a `<Trans>` with these attributes and children, where `snippet` is the whole
element. -/
def transOutcome (snippet : String) (attributes children : List Node) : Outcome :=
  match explicitKey? attributes, simpleText? children with
  | some key, some _ => .accepted key
  | some key, none =>
    if children.isEmpty then .accepted key else .rejected key .complexTransChildren
  | none, some text => .accepted text
  | none, none => .rejected snippet .missingKeyOrComplexChildren

/-- The verdict on a node, if it is an occurrence of a key. -/
def outcome? (src : Source) : Node → Option Outcome
  | .call s callee arguments => callOutcome? (src.snippet s) callee arguments
  | .element s (.plain "Trans") attributes children =>
    some (transOutcome (src.snippet s) attributes children)
  | _ => none

end MessageKeys

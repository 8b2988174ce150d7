import MessageKeys.Syntax.Fault
import MessageKeys.Syntax.Node

namespace MessageKeys.Syntax

open Text (Span)

namespace Node

def start (n : Node) : Nat := (n.span.map Span.start).getD 0

/-- Whether assignment can store into the expression itself. -/
def isSimpleTarget : Node → Bool
  | identifier _ name => name != "eval" && name != "arguments"
  | paren _ inner => inner.isSimpleTarget
  | member _ (form _ .optionalMember _) _ _ | member _ (form _ .optionalCall _) _ _ => false
  | member .. => true
  | form _ .asType (inner :: _) | form _ .nonNull (inner :: _) | form _ .instantiation (inner :: _) =>
    inner.isSimpleTarget
  | _ => false

/-- Whether the grammar takes the expression as the left side of an assignment at all. -/
def isTarget : Node → Bool
  | identifier .. | member .. | paren .. => true
  | form _ kind _ =>
    kind ∈ [.optionalMember, .optionalCall, .asType, .asConst, .nonNull, .instantiation, .missing,
      .objectPattern, .arrayPattern]
  | _ => false

/-- Complaints about a target of assignment that is no pattern. Literals and operators are let
through here; calls are refused where `denyCalls` says so. -/
def targetFaults (denyCalls : Bool) : Node → List Fault
  | string .. | form _ .number _ | form _ .bigint _ | form _ .boolean _ | form _ .null _
  | form _ .regexp _ | form _ (.binary _) _ => []
  | call s _ _ => if denyCalls then [⟨(s.map Span.start).getD 0, .invalidAssignmentTarget⟩] else []
  | paren _ inner => inner.targetFaults denyCalls
  | n => if n.isSimpleTarget then [] else [⟨n.start, .invalidAssignmentTarget⟩]

end Node

/-- What a pattern is for: binding new names, or assigning to what is there. -/
inductive PatternUse where
  | binding
  | assignment
deriving Repr, DecidableEq

namespace Node

mutual

/-- Turns an expression into a pattern, with complaints about what is none. -/
def toPattern (use : PatternUse) : Node → Node × List Fault
  | identifier s name =>
    (identifier s name,
      if name == "eval" || name == "arguments" then
        [⟨(s.map Span.start).getD 0, .bindingNotAllowed name⟩]
      else [])
  | form s .object parts =>
    let (parts, faults) := membersToPattern use parts
    (form s .objectPattern parts, faults)
  | form s .array parts =>
    let (parts, faults) := itemsToPattern use parts
    (form s .arrayPattern parts, faults)
  | form s .assign parts => (form s .defaultPattern parts, [])
  | form s .objectPattern parts => (form s .objectPattern parts, [])
  | form s .arrayPattern parts => (form s .arrayPattern parts, [])
  | form s .missing parts => (form s .missing parts, [])
  | n =>
    match use with
    | .binding => (n, [⟨n.start, .notAPattern⟩])
    | .assignment => (n, if n.isSimpleTarget then [] else [⟨n.start, .notAPattern⟩])

/-- The members of an object; a rest member may only come last. -/
def membersToPattern (use : PatternUse) : List Node → List Node × List Fault
  | [] => ([], [])
  | m :: ms =>
    let (rest, faults) := membersToPattern use ms
    match m with
    | form s .shorthand parts => (form s .shorthand parts :: rest, faults)
    | form s .shorthandDefault parts => (form s .defaultPattern parts :: rest, faults)
    | form s .keyValue [key, value] =>
      let (value, more) := toPattern use value
      (form s .keyValue [key, value] :: rest, more ++ faults)
    | form s .trailingComma parts => (form s .trailingComma parts :: rest, faults)
    | spread s inner =>
      let start := (s.map Span.start).getD 0
      let (inner, more) := toPattern use inner
      let misplaced := match ms with
        | [] => []
        | form _ .trailingComma _ :: _ => [⟨start, .trailingCommaAfterRest⟩]
        | _ => [⟨start, .restNotLast⟩]
      (form s .restPattern [inner] :: rest, misplaced ++ more ++ faults)
    | m => (m :: rest, ⟨m.start, .notAPattern⟩ :: faults)

/-- The items of an array; a rest item may only come last. -/
def itemsToPattern (use : PatternUse) : List Node → List Node × List Fault
  | [] => ([], [])
  | m :: ms =>
    let (rest, faults) := itemsToPattern use ms
    match m with
    | form s .hole parts => (form s .hole parts :: rest, faults)
    | form s .trailingComma parts => (form s .trailingComma parts :: rest, faults)
    | spread s inner =>
      let start := (s.map Span.start).getD 0
      let (inner, more) := toPattern use inner
      let misplaced := match ms with
        | [] => []
        | form _ .trailingComma _ :: _ => [⟨start, .trailingCommaAfterRest⟩]
        | _ => [⟨start, .restNotLast⟩]
      (form s .restPattern [inner] :: rest, misplaced ++ more ++ faults)
    | m =>
      let (m, more) := toPattern use m
      (m :: rest, more ++ faults)

end

def toAssignmentTarget (n : Node) : Node × List Fault :=
  match n with
  | form _ .object _ | form _ .array _ => n.toPattern .assignment
  | n => (n, n.targetFaults true)

mutual

/-- Shorthand members with an initializer that have not become part of a pattern. -/
def strayInitializers : Node → List Fault
  | string .. | identifier .. | privateName .. | text .. => []
  | template _ _ holes => strayInitializersIn holes
  | paren _ inner | spread _ inner => inner.strayInitializers
  | member _ object property _ => object.strayInitializers ++ property.strayInitializers
  | call _ callee arguments => callee.strayInitializers ++ strayInitializersIn arguments
  | element _ _ attributes children =>
    strayInitializersIn attributes ++ strayInitializersIn children
  | attr _ _ none => []
  | attr _ _ (some value) => value.strayInitializers
  | form s .shorthandDefault parts =>
    ⟨(s.map Span.start).getD 0, .shorthandInitializer⟩ :: strayInitializersIn parts
  | form _ _ parts => strayInitializersIn parts

def strayInitializersIn : List Node → List Fault
  | [] => []
  | n :: ns => n.strayInitializers ++ strayInitializersIn ns

end

end Node

end MessageKeys.Syntax

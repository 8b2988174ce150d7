import MessageKeys.Text.Source

namespace MessageKeys.Syntax

open Text (CodeUnits Span)

/-- A stretch of a template between two holes. `cooked` is absent when it holds a malformed
escape. -/
structure Segment where
  cooked : Option CodeUnits
  raw : String
deriving Repr, DecidableEq

/-- The name of an element or of an attribute. -/
inductive MarkupName where
  | plain (name : String)
  | member (path : List String)
  | namespaced (space name : String)
deriving Repr, DecidableEq

/-- Binary operators, as far as they may not be mixed without parentheses. -/
inductive Connective where
  | coalesce
  | logical
  | other
deriving Repr, DecidableEq

/-- The kinds of construct that are known by their parts alone. -/
inductive Form where
  | number | bigint | boolean | null | regexp | this | superRef | importRef | metaProperty
  | hole | trailingComma | missing
  | array | object | computedKey | keyValue | shorthand | shorthandDefault | method
  | function | arrow | classBody
  | unary | update | await | yield | binary (op : Connective) | assign | compoundAssign
  | conditional | sequence
  | new | bareNew | optionalMember | optionalCall | tagged
  | asType | asConst | nonNull | instantiation
  | fragment | container | emptyContainer | spreadChild
  | objectPattern | arrayPattern | restPattern | defaultPattern | parameters
  | statement | declaration | type
deriving Repr, DecidableEq

/-- What a search for keys looks at has a constructor of its own. Every other construct is a `form`
that lists its parts in the order of visit. -/
inductive Node where
  | string (span : Option Span) (value : CodeUnits)
  | template (span : Option Span) (segments : List Segment) (holes : List Node)
  | identifier (span : Option Span) (name : String)
  | privateName (span : Option Span) (name : String)
  | paren (span : Option Span) (inner : Node)
  | member (span : Option Span) (object property : Node) (computed : Bool)
  | call (span : Option Span) (callee : Node) (arguments : List Node)
  | spread (span : Option Span) (inner : Node)
  | element (span : Option Span) (name : MarkupName) (attributes children : List Node)
  | attr (span : Option Span) (name : MarkupName) (value : Option Node)
  | text (span : Option Span) (value : String)
  | form (span : Option Span) (kind : Form) (parts : List Node)
deriving Repr

namespace Node

instance : Inhabited Node := ⟨.form none .missing []⟩

def span : Node → Option Span
  | string s _ | template s _ _ | identifier s _ | privateName s _ | paren s _ | member s _ _ _
  | call s _ _ | spread s _ | element s _ _ _ | attr s _ _ | text s _ | form s _ _ => s

/-- The immediate parts in the order of visit. -/
def parts : Node → List Node
  | string _ _ | identifier _ _ | privateName _ _ | text _ _ => []
  | template _ _ holes => holes
  | paren _ inner | spread _ inner => [inner]
  | member _ object property _ => [object, property]
  | call _ callee arguments => callee :: arguments
  | element _ _ attributes children => attributes ++ children
  | attr _ _ value => value.toList
  | form _ _ parts => parts

def stripParens : Node → Node
  | paren _ inner => inner.stripParens
  | n => n

mutual

/-- The calls and elements of a tree, each before those inside it. -/
def occurrences : Node → List Node
  | string _ _ | identifier _ _ | privateName _ _ | text _ _ => []
  | template _ _ holes => occurrencesIn holes
  | paren _ inner | spread _ inner => inner.occurrences
  | member _ object property _ => object.occurrences ++ property.occurrences
  | call s callee arguments =>
    call s callee arguments :: (callee.occurrences ++ occurrencesIn arguments)
  | element s name attributes children =>
    element s name attributes children :: (occurrencesIn attributes ++ occurrencesIn children)
  | attr _ _ none => []
  | attr _ _ (some value) => value.occurrences
  | form _ _ parts => occurrencesIn parts

def occurrencesIn : List Node → List Node
  | [] => []
  | n :: ns => n.occurrences ++ occurrencesIn ns

end

end Node

end MessageKeys.Syntax

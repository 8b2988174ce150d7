import MessageKeys.Syntax.Grammar.Item

namespace MessageKeys.Syntax

namespace Grammar

/-- The productions of all rules, over a grammar for what is nested in them. -/
def step (g : Grammar) : Grammar
  | .expression => Parser.expressionList g
  | .assignment => Parser.assignmentExpression g
  | .binary => Parser.binaryExpression g
  | .unary => Parser.unary g
  | .newCallee => Parser.newCallee g
  | .element => Parser.element g
  | .binding => Parser.binding g
  | .type => Parser.type g
  | .unconditionalType => Parser.unconditionalType g
  | .typeOperator => Parser.typeOperator g
  | .typeMember => Parser.typeMember g
  | .decorator => Parser.decorator g
  | .function async start => Parser.functionFrom g start async false []
  | .classExpression start marks => Parser.classFrom g start marks false
  | .statement declarations => Parser.statement g declarations
  | .moduleItem => Parser.moduleItem g
  | .block => Parser.blockStatement g

end Grammar

/-- A module: its items in order. -/
structure Module where
  items : List Node
deriving Repr

namespace Module

/-- No text nests its rules deeper than this. -/
def depthBound (cs : List Char) : Nat := 8 * (cs.length + 8)

/-- All items up to the end of the text. -/
def readItems : Parser (List Node) := do
  let cs := (← Parser.token).start.rest
  let ns ←
    Parser.many Parser.atEof (Parser.moduleItem (Grammar.ofDepth Grammar.step (depthBound cs)))
  Parser.noteAll (← Parser.token).faults
  return ns

/-- The complaints about a text that could be read to its end. -/
def complaints (ns : List Node) (s : State) : List Fault :=
  s.faults.reverse ++ Node.strayInitializersIn ns

/-- Reads a text as a module. A fault that ends the reading is reported before one that did not. -/
def parse (cs : List Char) : Except Fault Module :=
  match readItems {} ⟨firstToken cs, []⟩ with
  | .error fault => .error fault
  | .ok (ns, s) =>
    match complaints ns s with
    | fault :: _ => .error fault
    | [] => .ok ⟨ns⟩

/-- The calls and elements of a module, each before those inside it. -/
def occurrences (m : Module) : List Node :=
  Node.occurrencesIn m.items

end Module

end MessageKeys.Syntax

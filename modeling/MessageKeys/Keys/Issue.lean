import MessageKeys.Keys.Extraction

namespace MessageKeys

inductive Severity where
  | error
  | warning
deriving Repr, DecidableEq

namespace Severity

def name : Severity → String
  | error => "error"
  | warning => "warning"

end Severity

/-- A key to be looked at again, an occurrence without a key, or a file that could not be read. -/
inductive Issue where
  | warning (record : Record)
  | error (record : Record)
  | unreadable (failure : Failure)
deriving Repr, DecidableEq

namespace Issue

def file : Issue → String
  | warning r | error r => r.file
  | unreadable f => f.file

def line : Issue → Option Nat
  | warning r | error r => r.line
  | unreadable f => f.line

def message : Issue → String
  | warning r | error r => r.key
  | unreadable f => f.message

def severity : Issue → Severity
  | warning _ => .warning
  | error _ | unreadable _ => .error

def rule : Issue → Rule
  | warning r | error r => r.reason.rule
  | unreadable _ => .parseError

def details : Issue → Option String
  | warning r | error r => some r.reason.message
  | unreadable _ => none

/-- An absent line comes before all others. -/
def lineLE : Option Nat → Option Nat → Bool
  | none, _ => true
  | some _, none => false
  | some m, some n => m ≤ n

/-- By file, then by line. -/
def le (a b : Issue) : Bool :=
  a.file < b.file || (a.file == b.file && lineLE a.line b.line)

/-- Issues on one line keep their order. -/
def sort (issues : List Issue) : List Issue :=
  issues.mergeSort le

end Issue

end MessageKeys

import MessageKeys.Text.StringSet
import MessageKeys.Keys.Outcome
import MessageKeys.Syntax.Module

namespace MessageKeys

open Syntax (Node Module)
open Text (Source Span)

structure Extraction where
  keys : StringSet
  warnings : List Record
  errors : List Record
deriving DecidableEq

namespace Extraction

def empty : Extraction := ⟨∅, [], []⟩

instance : Inhabited Extraction := ⟨empty⟩

def isEmpty (e : Extraction) : Bool :=
  e.keys.isEmpty && e.warnings.isEmpty && e.errors.isEmpty

/-- Adds a verdict; `record` says where it was reached. -/
def add (e : Extraction) (record : String → Reason → Record) : Outcome → Extraction
  | .accepted key => { e with keys := e.keys.insert key }
  | .warned key reason =>
    { e with keys := e.keys.insert key, warnings := e.warnings ++ [record key reason] }
  | .rejected key reason => { e with errors := e.errors ++ [record key reason] }

/-- Adds the verdict on a node, if there is one. -/
def judge (src : Source) (file : String) (e : Extraction) (n : Node) : Extraction :=
  match outcome? src n with
  | some outcome => e.add (fun key reason => ⟨key, reason, file, src.line? n.span⟩) outcome
  | none => e

mutual

/-- Adds what a tree holds: a node's own verdict, then what its parts hold. -/
def visit (src : Source) (file : String) (e : Extraction) : Node → Extraction
  | .string _ _ | .identifier _ _ | .privateName _ _ | .text _ _ => e
  | .template _ _ holes => visitAll src file e holes
  | .paren _ inner | .spread _ inner => visit src file e inner
  | .member _ object property _ => visit src file (visit src file e object) property
  | .call s callee arguments =>
    let judged := e.judge src file (.call s callee arguments)
    visitAll src file (visit src file judged callee) arguments
  | .element s name attributes children =>
    let judged := e.judge src file (.element s name attributes children)
    visitAll src file (visitAll src file judged attributes) children
  | .attr _ _ none => e
  | .attr _ _ (some value) => visit src file e value
  | .form _ _ parts => visitAll src file e parts

def visitAll (src : Source) (file : String) (e : Extraction) : List Node → Extraction
  | [] => e
  | n :: ns => visitAll src file (visit src file e n) ns

end

/-- What a module yields, where `src` is the text it was read from. -/
def ofModule (src : Source) (file : String) (m : Module) : Extraction :=
  visitAll src file empty m.items

end Extraction

/-- A file that could not be read as a module. -/
structure Failure where
  file : String
  line : Option Nat
  message : String
deriving Repr, DecidableEq

namespace Failure

def describe (f : Failure) : String :=
  match f.line with
  | some line => s!"Failed to parse {f.file}:{line}: {f.message}"
  | none => s!"Failed to parse {f.file}: {f.message}"

end Failure

/-- Reads a source text. The label stands for it in faults. -/
def parseSource (src : Source) (label : String) : Except Failure Module :=
  match Module.parse src.chars with
  | .ok m => .ok m
  | .error fault => .error ⟨label, some (src.lineAt fault.offset), fault.cause.message⟩

/-- The keys of a source text, or why it could not be read. -/
def tryExtract (text label : String) : Except Failure Extraction :=
  let src := Source.ofString text
  match parseSource src label with
  | .ok m => .ok (Extraction.ofModule src label m)
  | .error failure => .error failure

/-- The keys of a source text; none if it could not be read. -/
def extract (text label : String) : Extraction :=
  match tryExtract text label with
  | .ok e => e
  | .error _ => .empty

end MessageKeys

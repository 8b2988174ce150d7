import MessageKeys.Keys.Issue

namespace MessageKeys

structure Aggregate where
  keys : StringSet
  warnings : List Record
  errors : List Record
  failures : List Failure
  filesChecked : Nat
deriving DecidableEq

namespace Aggregate

def empty : Aggregate := ⟨∅, [], [], [], 0⟩

instance : Inhabited Aggregate := ⟨empty⟩

def merge (a : Aggregate) (e : Extraction) : Aggregate where
  keys := a.keys.union e.keys
  warnings := a.warnings ++ e.warnings
  errors := a.errors ++ e.errors
  failures := a.failures
  filesChecked := a.filesChecked + 1

/-- Takes in a file that could not be read. -/
def mergeFailure (a : Aggregate) (failure : Failure) : Aggregate :=
  { a with failures := a.failures ++ [failure], filesChecked := a.filesChecked + 1 }

def mergeResult (a : Aggregate) : Except Failure Extraction → Aggregate
  | .ok e => a.merge e
  | .error failure => a.mergeFailure failure

def ofResults (results : List (Except Failure Extraction)) : Aggregate :=
  results.foldl mergeResult empty

/-- The keys that are not known yet, in order. -/
def newKeys (a : Aggregate) (existing : StringSet) : List String :=
  (a.keys.diff existing).toList

/-- Unreadable files first, then warnings, then errors. -/
def issues (a : Aggregate) : List Issue :=
  a.failures.map .unreadable ++ a.warnings.map .warning ++ a.errors.map .error

end Aggregate

end MessageKeys

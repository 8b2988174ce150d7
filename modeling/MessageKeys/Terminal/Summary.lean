import MessageKeys.Project.Settings
import MessageKeys.Terminal.Listing

namespace MessageKeys.Terminal

structure ExtractSummary where
  keyCount : Nat
  newKeyCount : Nat
  /-- How many keys were known; none if nothing was asked. -/
  existingKeyCount : Option Nat
  outputDir : String
  written : List String
  dryRun : Bool
deriving Repr, DecidableEq

structure InitSummary where
  created : Bool
  error : Option String
deriving Repr, DecidableEq

inductive Summary where
  | extract (summary : ExtractSummary)
  | init (summary : InitSummary)
deriving Repr, DecidableEq

namespace Summary

def ownErrors : Summary → Nat
  | extract _ => 0
  | init s => if s.error.isSome then 1 else 0

end Summary

structure CommandResult where
  summary : Summary
  issues : List Issue
  errorCount : Nat
  warningCount : Nat
  unreadableCount : Nat
  filesChecked : Nat
deriving Repr, DecidableEq

inductive ExitStatus where
  | success
  | failure
  | error
deriving Repr, DecidableEq

namespace ExitStatus

def code : ExitStatus → UInt32
  | success => 0
  | failure => 1
  | error => 2

end ExitStatus

def isUnreadable : Issue → Bool
  | .unreadable _ => true
  | _ => false

namespace CommandResult

/-- Puts the issues in order and counts them. -/
def finish (summary : Summary) (issues : List Issue) (filesChecked : Nat) : CommandResult where
  summary := summary
  issues := Issue.sort issues
  errorCount := Listing.errorCount issues + summary.ownErrors
  warningCount := Listing.warningCount issues
  unreadableCount := issues.countP isUnreadable
  filesChecked := filesChecked

def exitStatus (r : CommandResult) : ExitStatus :=
  if 0 < r.errorCount then .failure else .success

end CommandResult

/-- What is printed, apart for the two streams. -/
structure Output where
  stdout : Styled
  stderr : Styled
deriving Repr, DecidableEq

namespace ExtractSummary

def headlineText (s : ExtractSummary) (filesChecked : Nat) : String :=
  let keys := noun s.keyCount "key"
  let files := noun filesChecked "file"
  let base := s!"Extracted {s.keyCount} {keys} from {filesChecked} source {files}"
  match s.existingKeyCount with
  | some _ => base ++ s!" ({s.newKeyCount} new)"
  | none => base

def filesLines (s : ExtractSummary) (verbose : Bool) : Styled :=
  if s.dryRun then
    [⟨[.bold, .yellow], "Dry run:"⟩, .plain s!" no files written (would write to {s.outputDir})\n"]
  else
    [⟨[.bold, .green], "Wrote"⟩, .plain s!" {s.written.length} report files to {s.outputDir}\n"] ++
      if verbose then s.written.map fun path => .plain s!"  - {path}\n" else []

def render (s : ExtractSummary) (filesChecked : Nat) (verbose : Bool) : Styled :=
  [⟨[.green], successMark⟩, .plain " ", ⟨[.green], s.headlineText filesChecked⟩, .plain "\n"] ++
    s.filesLines verbose

end ExtractSummary

namespace InitSummary

def stdout (s : InitSummary) : Styled :=
  if s.created then
    [⟨[.green], successMark⟩, .plain " ", ⟨[.green], s!"Created {Settings.fileName}"⟩, .plain "\n"]
  else []

def stderr (s : InitSummary) : Styled :=
  match s.error with
  | some message => [⟨[.bold, .red], "error:"⟩, .plain s!" {message}\n"]
  | none => []

end InitSummary

namespace CommandResult

def output (r : CommandResult) (verbose : Bool) : Output :=
  match r.summary with
  | .extract s => ⟨Listing.issues r.issues ++ s.render r.filesChecked verbose, []⟩
  | .init s => ⟨s.stdout, s.stderr⟩

end CommandResult

end MessageKeys.Terminal

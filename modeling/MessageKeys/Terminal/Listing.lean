import MessageKeys.Keys.Issue
import MessageKeys.Terminal.Style
import MessageKeys.Terminal.Width

namespace MessageKeys.Terminal

/-- The widest headline in columns. -/
def maxHeadlineWidth : Nat := 72

/-- The first characters whose widths add up to at most `room`. -/
def fitting : (room : Nat) → List Char → List Char
  | _, [] => []
  | room, c :: cs => if charWidth c ≤ room then c :: fitting (room - charWidth c) cs else []

/-- The first line without the blanks at its end. -/
def firstLine (cs : List Char) : List Char :=
  Text.trimEnd (cs.takeWhile (· != '\n'))

def hasSecondLine (cs : List Char) : Bool :=
  !((cs.dropWhile (· != '\n')).drop 1).isEmpty

def headlineChars (cs : List Char) : List Char :=
  let first := firstLine cs
  if !hasSecondLine cs && stringWidth first ≤ maxHeadlineWidth then first
  else fitting (maxHeadlineWidth - 1) first ++ ['…']

def headline (message : String) : String :=
  String.ofList (headlineChars message.toList)

def successMark : String := "✓"

def failureMark : String := "✘"

def noun (n : Nat) (singular : String) : String :=
  if n == 1 then singular else singular ++ "s"

namespace Listing

def severity : Severity → Piece
  | .error => ⟨[.bold, .red], "error"⟩
  | .warning => ⟨[.bold, .yellow], "warning"⟩

def place (file : String) : Option Nat → String
  | some line => s!"{file}:{line}"
  | none => file

def issue (i : Issue) : Styled :=
  [severity i.severity, .plain s!": \"{headline i.message}\"  ", ⟨[.dimmed, .cyan], i.rule.name⟩,
    .plain "\n  ",
    ⟨[.blue], "-->"⟩, .plain s!" {place i.file i.line}\n"] ++
  (match i.details with
    | some details =>
      [.plain "  ", ⟨[.blue], "="⟩, .plain " ", ⟨[.bold], "note:"⟩, .plain s!" {details}\n"]
    | none => []) ++
  [.plain "\n"]

def errorCount (issues : List Issue) : Nat := issues.countP (·.severity == .error)

def warningCount (issues : List Issue) : Nat := issues.countP (·.severity == .warning)

def totals (issues : List Issue) : Styled :=
  let errors := errorCount issues
  let warnings := warningCount issues
  [⟨[.red], failureMark⟩, .plain s!" {errors + warnings} problems ({errors} ",
    ⟨[.red], noun errors "error"⟩, .plain s!", {warnings} ",
    ⟨[.yellow], noun warnings "warning"⟩, .plain ")\n"]

/-- All issues and their number; nothing if there are none. -/
def issues (is : List Issue) : Styled :=
  if is.isEmpty then [] else is.flatMap issue ++ totals is

end Listing

end MessageKeys.Terminal

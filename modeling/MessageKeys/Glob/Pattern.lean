namespace MessageKeys.Glob

/-- A range of characters; a single one is a range of its own. -/
structure CharRange where
  first : Char
  last : Char
deriving Repr, DecidableEq

namespace CharRange

def contains (r : CharRange) (c : Char) : Bool := r.first ≤ c && c ≤ r.last

/-- The ranges that a set is written as: `a-z`, or one character. -/
def ofSet : List Char → List CharRange
  | a :: '-' :: b :: cs => ⟨a, b⟩ :: ofSet cs
  | a :: cs => ⟨a, a⟩ :: ofSet cs
  | [] => []

end CharRange

inductive Token where
  | char (c : Char)
  | anyChar
  | anySequence
  | anyComponents
  | within (ranges : List CharRange)
  | except (ranges : List CharRange)
deriving Repr, DecidableEq

/-- A pattern is read from left to right. Two stars stand for a run of whole path components; to all
other tokens a slash is a character like any other. -/
abbrev Pattern := List Token

inductive PatternError.Cause where
  | wildcards
  | recursiveWildcards
  | invalidRange
deriving Repr, DecidableEq

/-- What is wrong with a pattern, and at which of its characters. -/
structure PatternError where
  position : Nat
  cause : PatternError.Cause
deriving Repr, DecidableEq

namespace PatternError

def Cause.message : Cause → String
  | wildcards => "wildcards are either regular `*` or recursive `**`"
  | recursiveWildcards => "recursive wildcards must form a single path component"
  | invalidRange => "invalid range pattern"

def message (e : PatternError) : String :=
  s!"Pattern syntax error near position {e.position}: {e.cause.message}"

end PatternError

/-- Splits at the first closing bracket, which does not count as the first character. -/
def splitSet? : List Char → Option (List Char × List Char)
  | [] => none
  | c :: cs =>
    match cs.dropWhile (· != ']') with
    | _ :: rest => some (c :: cs.takeWhile (· != ']'), rest)
    | [] => none

def parseSet? : List Char → Option (Token × List Char)
  | '!' :: cs => (splitSet? cs).map fun (set, rest) => (.except (CharRange.ofSet set), rest)
  | cs => (splitSet? cs).map fun (set, rest) => (.within (CharRange.ofSet set), rest)

/-- Reads a pattern from a position on. `afterSlash` says that a path component starts there. -/
def parseFrom : (fuel : Nat) → (position : Nat) → (afterSlash : Bool) → List Char →
    Except PatternError Pattern
  | 0, _, _, _ => .ok []
  | _ + 1, _, _, [] => .ok []
  | fuel + 1, i, _, '?' :: cs => (parseFrom fuel (i + 1) false cs).map (.anyChar :: ·)
  | fuel + 1, i, afterSlash, '*' :: cs =>
    match cs with
    | '*' :: '*' :: _ => .error ⟨i + 2, .wildcards⟩
    | '*' :: rest =>
      if !afterSlash then .error ⟨i - 1, .recursiveWildcards⟩
      else
        match rest with
        | [] => .ok [.anyComponents]
        | '/' :: rest => (parseFrom fuel (i + 3) true rest).map (.anyComponents :: ·)
        | _ => .error ⟨i + 2, .recursiveWildcards⟩
    | _ => (parseFrom fuel (i + 1) false cs).map (.anySequence :: ·)
  | fuel + 1, i, _, '[' :: cs =>
    match parseSet? cs with
    | some (token, rest) =>
      (parseFrom fuel (i + 1 + (cs.length - rest.length)) false rest).map (token :: ·)
    | none => .error ⟨i, .invalidRange⟩
  | fuel + 1, i, _, c :: cs => (parseFrom fuel (i + 1) (c == '/') cs).map (.char c :: ·)

def Pattern.parse (text : String) : Except PatternError Pattern :=
  parseFrom text.length 0 true text.toList

namespace Token

def accepts : Token → Char → Bool
  | char d, c => c == d
  | anyChar, _ => true
  | within ranges, c => ranges.any (·.contains c)
  | except ranges, c => !ranges.any (·.contains c)
  | anySequence, _ | anyComponents, _ => false

end Token

def ends : List Char → List (List Char)
  | [] => [[]]
  | c :: cs => (c :: cs) :: ends cs

def afterSlashes : List Char → List (List Char)
  | [] => []
  | c :: cs => if c == '/' then cs :: afterSlashes cs else afterSlashes cs

namespace Pattern

/-- Does a pattern stand for a whole text? A run of components ends after a slash or with the
text. -/
def isMatch : Pattern → List Char → Bool
  | [], cs => cs.isEmpty
  | .anySequence :: ts, cs => (ends cs).any (isMatch ts)
  | .anyComponents :: ts, cs =>
    isMatch ts cs || (afterSlashes cs).any (isMatch ts) || isMatch ts []
  | _ :: _, [] => false
  | t :: ts, c :: cs => t.accepts c && isMatch ts cs

def literal? : Pattern → Option (List Char)
  | [] => some []
  | .char c :: ts => (literal? ts).map (c :: ·)
  | _ => none

def isRecursive (p : Pattern) : Bool := p.contains .anyComponents

end Pattern

/-- Entries with a star or a question mark are patterns, all others plain paths. -/
def isGlob (text : String) : Bool :=
  text.toList.any fun c => c == '*' || c == '?'

end MessageKeys.Glob

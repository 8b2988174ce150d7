import MessageKeys.Syntax.Literal
import MessageKeys.Text.Source

namespace MessageKeys.Syntax

open Text (isBlank isIdentStart isIdentPart hexDigit? charOfNat?)

def isLineBreak (c : Char) : Bool :=
  c == '\n' || c == '\r' || c == '\u2028' || c == '\u2029'

def isTrivial (c : Char) : Bool :=
  isBlank c || c == '\uFEFF'

/-- What lies between two tokens. -/
structure Trivia where
  stop : Cursor
  lineBreak : Bool
  faults : List Fault

inductive TriviaMode where
  | plain
  | line
  | block
deriving Repr, DecidableEq

/-- Skips blanks and comments. `lineBreak` says whether a line break has been passed. -/
def skipTrivia : TriviaMode → (lineBreak : Bool) → List Fault → (offset : Nat) → List Char → Trivia
  | .block, lineBreak, faults, offset, [] =>
    ⟨⟨offset, []⟩, lineBreak, faults ++ [⟨offset, .unterminatedComment⟩]⟩
  | _, lineBreak, faults, offset, [] => ⟨⟨offset, []⟩, lineBreak, faults⟩
  | .line, lineBreak, faults, offset, c :: cs =>
    if isLineBreak c then skipTrivia .plain true faults (offset + c.utf8Size) cs
    else skipTrivia .line lineBreak faults (offset + c.utf8Size) cs
  | .block, lineBreak, faults, offset, c :: cs =>
    match c, cs with
    | '*', '/' :: cs => skipTrivia .plain lineBreak faults (offset + 2) cs
    | c, cs => skipTrivia .block (lineBreak || isLineBreak c) faults (offset + c.utf8Size) cs
  | .plain, lineBreak, faults, offset, c :: cs =>
    if isTrivial c then
      skipTrivia .plain (lineBreak || isLineBreak c) faults (offset + c.utf8Size) cs
    else match c, cs with
      | '/', '/' :: cs => skipTrivia .line lineBreak faults (offset + 2) cs
      | '/', '*' :: cs => skipTrivia .block lineBreak faults (offset + 2) cs
      | '<', '!' :: '-' :: '-' :: cs =>
        skipTrivia .line lineBreak (faults ++ [⟨offset, .legacyComment⟩]) (offset + 4) cs
      | '-', '-' :: '>' :: cs' =>
        if lineBreak then
          skipTrivia .line lineBreak (faults ++ [⟨offset, .legacyComment⟩]) (offset + 3) cs'
        else ⟨⟨offset, c :: cs⟩, lineBreak, faults⟩
      | c, cs => ⟨⟨offset, c :: cs⟩, lineBreak, faults⟩

/-- How far an escape in a word has been read. -/
inductive WordMode where
  | plain
  | backslash
  | unicode
  | fixed (left value : Nat)
  | braced (value digits : Nat)
deriving Repr, DecidableEq

/-- A word that has been read, or nothing if an escape in it is malformed. -/
structure ScannedWord where
  name : Option (List Char)
  escaped : Bool
  stop : Cursor

/-- Adds the character of an escape to a word, if a word may hold it there. -/
def extendWord (name : List Char) (n : Nat) : Option (List Char) := do
  let c ← charOfNat? n
  if (if name.isEmpty then isIdentStart c else isIdentPart c) then some (c :: name) else none

/-- Reads a word. `name` is collected in reverse. -/
def scanWord : WordMode → (name : List Char) → (escaped : Bool) → (offset : Nat) → List Char →
    ScannedWord
  | .plain, name, escaped, offset, [] => ⟨some name.reverse, escaped, ⟨offset, []⟩⟩
  | _, _, escaped, offset, [] => ⟨none, escaped, ⟨offset, []⟩⟩
  | mode, name, escaped, offset, c :: cs =>
    let next := offset + c.utf8Size
    let bad : ScannedWord := ⟨none, escaped, ⟨next, cs⟩⟩
    match mode with
    | .plain =>
      if c = '\\' then scanWord .backslash name true next cs
      else if isIdentPart c then scanWord .plain (c :: name) escaped next cs
      else ⟨some name.reverse, escaped, ⟨offset, c :: cs⟩⟩
    | .backslash => if c = 'u' then scanWord .unicode name escaped next cs else bad
    | .unicode =>
      if c = '\x7b' then scanWord (.braced 0 0) name escaped next cs
      else match hexDigit? c with
        | some d => scanWord (.fixed 3 d) name escaped next cs
        | none => bad
    | .fixed left value =>
      match hexDigit? c with
      | none => bad
      | some d =>
        if left ≤ 1 then
          match extendWord name (value * 16 + d) with
          | some name => scanWord .plain name escaped next cs
          | none => bad
        else scanWord (.fixed (left - 1) (value * 16 + d)) name escaped next cs
    | .braced value digits =>
      if c = '\x7d' then
        match digits, extendWord name value with
        | _ + 1, some name => scanWord .plain name escaped next cs
        | _, _ => bad
      else match hexDigit? c with
        | some d => scanWord (.braced (value * 16 + d) (digits + 1)) name escaped next cs
        | none => bad

namespace Token

/-- The words that never name anything in a module. -/
def reservedWords : List String :=
  ["break", "case", "catch", "class", "const", "continue", "debugger", "default", "delete", "do",
   "else", "enum", "export", "extends", "false", "finally", "for", "function", "if", "import", "in",
   "instanceof", "new", "null", "return", "super", "switch", "this", "throw", "true", "try",
   "typeof", "var", "void", "while", "with"]

def isReserved (name : String) : Bool := reservedWords.contains name

/-- The token whose first character is at `start`. -/
def kindAt (start : Cursor) : TokenKind × Cursor × List Fault :=
  let failing (cause : Cause) (stop : Cursor) : TokenKind × Cursor × List Fault :=
    (.invalid ⟨start.offset, cause⟩, stop, [])
  match start.rest with
  | [] => (.eof, start, [])
  | c :: cs =>
    if isIdentStart c || c == '\\' then
      let word := scanWord .plain [] false start.offset (c :: cs)
      match word.name with
      | none => failing .malformedIdentifier word.stop
      | some name => (.word (String.ofList name) word.escaped, word.stop, [])
    else if c == '"' || c == '\'' then
      let s := scanString c start.offset .plain [] [] (start.offset + 1) cs
      match s.failure with
      | some fault => (.invalid fault, s.stop, s.faults)
      | none => (.string s.units, s.stop, s.faults)
    else if c == '`' then
      match scanTemplate? .plain .empty (start.offset + 1) cs with
      | none => failing .unterminatedTemplate ⟨start.offset, []⟩
      | some t => (.template t.segment t.last t.malformed, t.stop, [])
    else if c.isDigit || (c == '.' && cs.head?.any Char.isDigit) then
      let n := scanNumber (c :: cs)
      let stop : Cursor := ⟨start.offset + n.chars, n.rest⟩
      match n.failure with
      | some cause => failing cause stop
      | none =>
        (if n.bigint then .bigint else .number, stop, n.faults.map fun cause => ⟨start.offset, cause⟩)
    else match Punctuator.scan? (c :: cs) with
      | some p => (.punct p, start.skipAscii p.length, [])
      | none => failing (.unexpectedCharacter c) ⟨start.offset + c.utf8Size, cs⟩

def scan (leading : Cursor) : Token :=
  let trivia := skipTrivia .plain false [] leading.offset leading.rest
  let (kind, stop, faults) := kindAt trivia.stop
  { kind, leading, start := trivia.stop, stop, lineBefore := trivia.lineBreak
    faults := trivia.faults ++ faults }

def next (t : Token) : Token := scan t.stop

end Token

/-- The first token of a text, behind a `#!` line. -/
def firstToken (cs : List Char) : Token :=
  match cs with
  | '#' :: '!' :: rest =>
    let trivia := skipTrivia .line true [] 2 rest
    { Token.scan trivia.stop with lineBefore := true, leading := ⟨0, cs⟩ }
  | cs => Token.scan ⟨0, cs⟩

/-- The regular expression that begins with the slash at `start`: the place after it, its faults. -/
def scanRegexp? (start : Cursor) : Option (Cursor × List Fault) := do
  let body ← scanRegexpBody? false false (start.offset + 1) (start.rest.drop 1)
  let flags := scanWord .plain [] false body.offset body.rest
  let faults := (regexpFlagFaults (flags.name.getD [])).map fun cause => ⟨start.offset, cause⟩
  pure (flags.stop, if flags.escaped then faults ++ [⟨body.offset, .malformedIdentifier⟩] else faults)

/-- Reads markup text up to the next tag or hole; a `>` or closing brace in it is a fault. The
characters are collected in reverse. -/
def scanMarkupText : (acc : List Char) → List Fault → (offset : Nat) → List Char →
    List Char × List Fault × Cursor
  | acc, faults, offset, [] => (acc.reverse, faults, ⟨offset, []⟩)
  | acc, faults, offset, c :: cs =>
    if c = '<' ∨ c = '\x7b' then (acc.reverse, faults, ⟨offset, c :: cs⟩)
    else
      let faults :=
        if c = '>' ∨ c = '\x7d' then faults ++ [⟨offset, .strayMarkupCharacter c⟩] else faults
      scanMarkupText (c :: acc) faults (offset + c.utf8Size) cs

/-- Reads a quoted attribute value up to its closing quote, in which nothing escapes the quote. -/
def scanMarkupString? (quote : Char) : (acc : List Char) → (offset : Nat) → List Char →
    Option (List Char × Cursor)
  | _, _, [] => none
  | acc, offset, c :: cs =>
    if c = quote then some (acc.reverse, ⟨offset + 1, cs⟩)
    else scanMarkupString? quote (c :: acc) (offset + c.utf8Size) cs

/-- Reads the characters of a markup name, in which hyphens may stand. -/
def scanMarkupName : (acc : List Char) → (offset : Nat) → List Char → List Char × Cursor
  | acc, offset, [] => (acc.reverse, ⟨offset, []⟩)
  | acc, offset, c :: cs =>
    if c = '-' ∨ isIdentPart c then scanMarkupName (c :: acc) (offset + c.utf8Size) cs
    else (acc.reverse, ⟨offset, c :: cs⟩)

end MessageKeys.Syntax

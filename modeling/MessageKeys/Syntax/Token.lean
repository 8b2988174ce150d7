import MessageKeys.Syntax.Fault
import MessageKeys.Syntax.Node
import MessageKeys.Syntax.Punctuator

namespace MessageKeys.Syntax

open Text (CodeUnits Span)

/-- A place in a text: the bytes before it and the characters after it. -/
structure Cursor where
  offset : Nat
  rest : List Char
deriving Repr, Inhabited

namespace Cursor

/-- The place after the next `n` characters, all of them ASCII. -/
def skipAscii (c : Cursor) (n : Nat) : Cursor :=
  ⟨c.offset + n, c.rest.drop n⟩

end Cursor

inductive TokenKind where
  | word (name : String) (escaped : Bool)
  | punct (p : Punctuator)
  | string (value : CodeUnits)
  /-- A stretch of a template, up to the next hole or to the end of the template. -/
  | template (segment : Segment) (last : Bool) (malformed : Option Fault)
  | number
  | bigint
  | eof
  | invalid (fault : Fault)
deriving Repr, Inhabited

/-- A token. `leading` is the place after the token before it; `faults` come with accepting it. -/
structure Token where
  kind : TokenKind
  leading : Cursor
  start : Cursor
  stop : Cursor
  lineBefore : Bool
  faults : List Fault
deriving Repr, Inhabited

namespace Token

def span (t : Token) : Span := ⟨t.start.offset, t.stop.offset⟩

def isPunct (t : Token) (p : Punctuator) : Bool :=
  match t.kind with
  | .punct q => p = q
  | _ => false

/-- Whether the token is this word, written without escapes. -/
def isWord (t : Token) (name : String) : Bool :=
  match t.kind with
  | .word n escaped => n == name && !escaped
  | _ => false

def isEof (t : Token) : Bool :=
  match t.kind with
  | .eof => true
  | _ => false

/-- How the token is named in a complaint. -/
def describe (t : Token) : String :=
  match t.kind with
  | .word name _ => name
  | .punct p => p.spelling
  | .string _ => "string literal"
  | .template .. => "template literal"
  | .number | .bigint => "numeric literal"
  | .eof => "<eof>"
  | .invalid _ => "<error>"

end Token

end MessageKeys.Syntax

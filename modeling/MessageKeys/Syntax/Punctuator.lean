namespace MessageKeys.Syntax

inductive Punctuator where
  | braceOpen | braceClose | parenOpen | parenClose | bracketOpen | bracketClose | dot | ellipsis
  | semicolon | comma | less | greater | lessEqual | greaterEqual | equal | notEqual | same
  | notSame | plus | minus | star | slash | percent | power | increment | decrement | shiftLeft
  | shiftRight | shiftRightZero | ampersand | bar | caret | bang | tilde | and | or | coalesce
  | question | questionDot | colon | assign | plusAssign | minusAssign | starAssign | slashAssign
  | percentAssign | powerAssign | shiftLeftAssign | shiftRightAssign | shiftRightZeroAssign
  | ampersandAssign | barAssign | caretAssign | andAssign | orAssign | coalesceAssign | arrow
  | atSign | hash
deriving Repr, DecidableEq

namespace Punctuator

def spelling : Punctuator → String
  | braceOpen => "\x7b"
  | braceClose => "\x7d"
  | parenOpen => "("
  | parenClose => ")"
  | bracketOpen => "["
  | bracketClose => "]"
  | dot => "."
  | ellipsis => "..."
  | semicolon => ";"
  | comma => ","
  | less => "<"
  | greater => ">"
  | lessEqual => "<="
  | greaterEqual => ">="
  | equal => "=="
  | notEqual => "!="
  | same => "==="
  | notSame => "!=="
  | plus => "+"
  | minus => "-"
  | star => "*"
  | slash => "/"
  | percent => "%"
  | power => "**"
  | increment => "++"
  | decrement => "--"
  | shiftLeft => "<<"
  | shiftRight => ">>"
  | shiftRightZero => ">>>"
  | ampersand => "&"
  | bar => "|"
  | caret => "^"
  | bang => "!"
  | tilde => "~"
  | and => "&&"
  | or => "||"
  | coalesce => "??"
  | question => "?"
  | questionDot => "?."
  | colon => ":"
  | assign => "="
  | plusAssign => "+="
  | minusAssign => "-="
  | starAssign => "*="
  | slashAssign => "/="
  | percentAssign => "%="
  | powerAssign => "**="
  | shiftLeftAssign => "<<="
  | shiftRightAssign => ">>="
  | shiftRightZeroAssign => ">>>="
  | ampersandAssign => "&="
  | barAssign => "|="
  | caretAssign => "^="
  | andAssign => "&&="
  | orAssign => "||="
  | coalesceAssign => "??="
  | arrow => "=>"
  | atSign => "@"
  | hash => "#"

/-- The punctuators that begin with a character, longest spelling first. -/
def beginning : Char → List Punctuator
  | '\x7b' => [.braceOpen]
  | '\x7d' => [.braceClose]
  | '(' => [.parenOpen]
  | ')' => [.parenClose]
  | '[' => [.bracketOpen]
  | ']' => [.bracketClose]
  | '.' => [.ellipsis, .dot]
  | ';' => [.semicolon]
  | ',' => [.comma]
  | '<' => [.shiftLeftAssign, .lessEqual, .shiftLeft, .less]
  | '>' => [.shiftRightZeroAssign, .shiftRightZero, .shiftRightAssign, .greaterEqual, .shiftRight, .greater]
  | '=' => [.same, .equal, .arrow, .assign]
  | '!' => [.notSame, .notEqual, .bang]
  | '+' => [.increment, .plusAssign, .plus]
  | '-' => [.decrement, .minusAssign, .minus]
  | '*' => [.powerAssign, .power, .starAssign, .star]
  | '/' => [.slashAssign, .slash]
  | '%' => [.percentAssign, .percent]
  | '&' => [.andAssign, .and, .ampersandAssign, .ampersand]
  | '|' => [.orAssign, .or, .barAssign, .bar]
  | '^' => [.caretAssign, .caret]
  | '~' => [.tilde]
  | '?' => [.coalesceAssign, .coalesce, .questionDot, .question]
  | ':' => [.colon]
  | '@' => [.atSign]
  | '#' => [.hash]
  | _ => []

/-- Whether the punctuator stands at the front of a text. `?.` before a digit does not. -/
def standsAt (p : Punctuator) (cs : List Char) : Bool :=
  p.spelling.toList.isPrefixOf cs &&
    (p ≠ questionDot || !((cs.drop 2).head?.any Char.isDigit))

/-- The punctuator at the front of a text. -/
def scan? : List Char → Option Punctuator
  | [] => none
  | c :: cs => (beginning c).find? (·.standsAt (c :: cs))

def length (p : Punctuator) : Nat := p.spelling.length

end Punctuator

end MessageKeys.Syntax

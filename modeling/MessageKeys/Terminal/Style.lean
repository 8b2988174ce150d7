namespace MessageKeys.Terminal

inductive Style where
  | bold
  | dimmed
  | red
  | green
  | yellow
  | blue
  | cyan
deriving Repr, DecidableEq

namespace Style

def code : Style → String
  | bold => "1"
  | dimmed => "2"
  | red => "31"
  | green => "32"
  | yellow => "33"
  | blue => "34"
  | cyan => "36"

end Style

structure Piece where
  styles : List Style
  text : String
deriving Repr, DecidableEq

abbrev Styled := List Piece

namespace Piece

def plain (text : String) : Piece := ⟨[], text⟩

def render (colored : Bool) (p : Piece) : String :=
  if colored && !p.styles.isEmpty then
    "\x1b[" ++ ";".intercalate (p.styles.map Style.code) ++ "m" ++ p.text ++ "\x1b[0m"
  else p.text

end Piece

namespace Styled

def render (colored : Bool) (s : Styled) : String :=
  String.join (s.map (Piece.render colored))

end Styled

/-- Whether to print colours, from the values of `CLICOLOR_FORCE`, `NO_COLOR` and `CLICOLOR`. Where
none of them decides, a terminal gets colours. -/
def wantsColor (force never usual : Option String) (terminal : Bool) : Bool :=
  if force.any (· != "0") then true
  else if never.isSome then false
  else terminal && usual.all (· != "0")

end MessageKeys.Terminal

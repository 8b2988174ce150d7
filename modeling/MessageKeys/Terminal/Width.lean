import MessageKeys.Terminal.ColumnTable

namespace MessageKeys.Terminal

def isBetween (lo hi : Nat) (c : Char) : Bool := lo ≤ c.toNat && c.toNat ≤ hi

def inTable (table : List (Nat × Nat)) (c : Char) : Bool :=
  table.any fun (lo, hi) => isBetween lo hi c

def isControl (c : Char) : Bool :=
  c.toNat < 0x20 || (0x7F ≤ c.toNat && c.toNat < 0xA0)

/-- The columns of a character that is no control character. -/
def charWidth? (c : Char) : Option Nat :=
  if isControl c then none
  else if c.toNat < 0x7F then some 1
  else if inTable zeroWidthRanges c then some 0
  else if inTable doubleWidthRanges c then some 2
  else if c = '\u17D8' then some 3
  else some 1

/-- The columns of a character; none for a control character. -/
def charWidth (c : Char) : Nat := (charWidth? c).getD 0

def joinerChar : Char := '\u200D'

def pictureSelector : Char := '\uFE0F'

def textSelector : Char := '\uFE0E'

def isModifier (c : Char) : Bool := isBetween 0x1F3FB 0x1F3FF c

def isIndicator (c : Char) : Bool := isBetween 0x1F1E6 0x1F1FF c

def isPicture (c : Char) : Bool := inTable pictureEmojiRanges c

/-- Does a selector after this character make it a picture? -/
def startsPicture (c : Char) : Bool := inTable textEmojiRanges c || isPicture c

/-- Does a selector after this character make it a text one column wide? -/
def startsText (c : Char) : Bool := isPicture c && !isBetween 0x1F200 0x1F2FF c

def isLam (c : Char) : Bool :=
  ['\u0644', '\u06B5', '\u06B6', '\u06B7', '\u06B8', '\u076A', '\u08A6', '\u08C7'].contains c

def isAlef (c : Char) : Bool :=
  ['\u0622', '\u0623', '\u0625', '\u0627', '\u0671', '\u0672', '\u0673', '\u0675', '\u0773',
    '\u0774'].contains c ||
    isBetween 0x0870 0x0882 c

/-- Consonants of Tifinagh, of which two can be written as one. -/
def isConsonant (c : Char) : Bool := isBetween 0x2D31 0x2D65 c || c = '\u2D6F'

def isSubscript (c : Char) : Bool := inTable subscriptRanges c

/-- Marks that do not part the letters of a ligature. -/
def isInvisible (c : Char) : Bool := inTable invisibleRanges c

/-- Marks that do not part lam and alef. -/
def isTransparent (c : Char) : Bool := charWidth c = 0 && !isBetween 0x200C 0x200D c

/-- The end of a ligature. -/
inductive Ligature where
  | lamed
  | ya
  | vowelYa
  | consonant
  | tiedConsonant
  | tone
  | orkhon
  | subscript
deriving Repr, DecidableEq

/-- What the characters after a place are, as far as one before them may join with them. -/
inductive Joint where
  | none
  | lineFeed
  | modifier
  | indicator
  | indicators
  | picture
  /-- A joiner and a picture. -/
  | joiner
  /-- The frame of a key, a joiner and a picture. -/
  | keycap
  /-- The last letter of a flag, a joiner and a picture; then also the letters before it. -/
  | joinedIndicator
  | evenIndicators
  | oddIndicators
  | alef
  /-- The end of a ligature, with a joiner before it or not. -/
  | ligature (ending : Ligature) (joined : Bool)
  | vowelE
  | vowelAI
deriving Repr, DecidableEq

namespace Joint

def takesSelector : Joint → Bool
  | joiner | keycap | alef | ligature _ _ => true
  | _ => false

/-- Does it stay as it is after a selector that has no effect? -/
def outlastsSelector : Joint → Bool
  | alef | ligature _ _ => true
  | _ => false

/-- What can be joined to a character that is not joined to anything after it. -/
def ofChar (c : Char) : Joint :=
  if isModifier c then modifier
  else if isIndicator c then indicator
  else if isPicture c then picture
  else if isAlef c then alef
  else if c = '\u05DC' then ligature .lamed false
  else if c = '\u1A10' then ligature .ya false
  else if isConsonant c then ligature .consonant false
  else if isBetween 0xA4FC 0xA4FD c then ligature .tone true
  else if c.toNat = 0x10C03 then ligature .orkhon false
  else if isSubscript c then ligature .subscript true
  else if c.toNat = 0x16D67 then vowelE
  else if c.toNat = 0x16D68 then vowelAI
  else none

end Joint

namespace Ligature

/-- The columns that a letter adds to a ligature, and what can be joined to it then. -/
def join? (ending : Ligature) (joined : Bool) (c : Char) : Option (Int × Joint) :=
  match ending with
  | lamed => if joined && c = '\u05D0' then some (0, .none) else none
  | ya => if joined && c = '\u1A17' then some (0, .ligature .vowelYa true) else none
  | vowelYa => if c = '\u1A15' then some (0, .none) else none
  | consonant =>
    if c = '\u2D7F' then some (1, .ligature .tiedConsonant true)
    else if joined && isConsonant c then some (0, .none)
    else none
  | tiedConsonant => if isConsonant c then some (-1, .none) else none
  | tone => if isBetween 0xA4F8 0xA4FB c then some (0, .none) else none
  | orkhon => if joined && c.toNat = 0x10C32 then some (0, .none) else none
  | subscript => if c = '\u17D2' then some (-1, .none) else none

end Ligature

namespace Joint

/-- The columns that a character adds if it is joined to what comes after it, and what can be joined
to it then. -/
def join? (joint : Joint) (c : Char) : Option (Int × Joint) :=
  match joint with
  | none | lineFeed | keycap => Option.none
  | modifier =>
    if inTable modifierBasesRanges c then some (0, picture)
    else if c = joinerChar then some (0, joiner)
    else Option.none
  | indicator => if isIndicator c then some (1, indicators) else Option.none
  | indicators =>
    if isIndicator c then some (1, indicators)
    else if c = joinerChar then some (0, joiner)
    else Option.none
  | picture => if c = joinerChar then some (0, joiner) else Option.none
  | joiner =>
    if c = '\u20E3' then some (0, keycap)
    else if isIndicator c then some (1, joinedIndicator)
    else if isModifier c then some (0, modifier)
    else if isPicture c then some (0, picture)
    else Option.none
  | joinedIndicator => if isIndicator c then some (-1, evenIndicators) else Option.none
  | evenIndicators =>
    if isIndicator c then some (3, oddIndicators)
    else if c = joinerChar then some (0, joiner)
    else Option.none
  | oddIndicators =>
    if isIndicator c then some (-1, evenIndicators)
    else if c = joinerChar then some (0, joiner)
    else Option.none
  | alef =>
    if isLam c then some (0, none) else if isTransparent c then some (0, alef) else Option.none
  | ligature ending joined =>
    if c = joinerChar then some (0, ligature ending true)
    else if isInvisible c then some (0, joint)
    else ending.join? joined c
  | vowelE =>
    if c.toNat = 0x16D67 then some (0, vowelAI)
    else if c.toNat = 0x16D63 || c.toNat = 0x16D69 then some (0, none)
    else Option.none
  | vowelAI => if c.toNat = 0x16D63 then some (0, none) else Option.none

end Joint

inductive Selector where
  | text
  | picture
deriving Repr, DecidableEq

structure Following where
  joint : Joint := .none
  /-- The character right after the place, if it is a selector. -/
  selector : Option Selector := none
deriving Repr, DecidableEq

/-- The columns that a character adds before what follows, without regard to selectors right after
it, and what follows then. -/
def plainWidth (joint : Joint) (c : Char) : Int × Following :=
  if c.toNat ≤ 0xA0 then
    if c = '\n' then (1, { joint := .lineFeed })
    else if c = '\r' && joint = .lineFeed then (0, {})
    else (1, {})
  else if c = pictureSelector then
    (0, { joint := if joint.takesSelector then joint else .none, selector := some .picture })
  else if c = textSelector then
    (0, { joint := if joint.outlastsSelector then joint else .none, selector := some .text })
  else
    match joint.join? c with
    | some (width, joint) => (width, { joint })
    | none => (charWidth c, { joint := .ofChar c })

/-- The columns that a character adds before what follows, and what follows then. -/
def addedWidth (following : Following) (c : Char) : Int × Following :=
  let joint := if following.joint.outlastsSelector then following.joint else .none
  match following.selector with
  | none => plainWidth following.joint c
  | some .picture =>
    if startsPicture c then
      let joined := following.joint = .joiner || following.joint = .keycap
      (if joined then 0 else 2, { joint := .picture })
    else plainWidth joint c
  | some .text => if startsText c then (1, {}) else plainWidth joint c

/-- The columns of a string, and what a character before it would be followed by. It is measured from
its end, since what a character adds depends on what comes after it. -/
def measure : List Char → Int × Following
  | [] => (0, {})
  | c :: cs =>
    let (width, following) := measure cs
    let (added, here) := addedWidth following c
    (width + added, here)

/-- The columns of a string. -/
def stringWidth (cs : List Char) : Nat := (measure cs).1.toNat

end MessageKeys.Terminal

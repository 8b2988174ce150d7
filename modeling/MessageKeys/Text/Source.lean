namespace MessageKeys.Text

/-- Byte offsets into the UTF-8 form of a text, the end excluded. -/
structure Span where
  start : Nat
  stop : Nat
deriving Repr, DecidableEq, Inhabited

namespace Span

def between (a b : Nat) : Span := ⟨min a b, max a b⟩

end Span

/-- The number of bytes of the UTF-8 form. -/
def byteLength (cs : List Char) : Nat :=
  cs.foldl (fun n c => n + c.utf8Size) 0

theorem foldl_utf8Size (n : Nat) (cs : List Char) :
    cs.foldl (fun n c => n + c.utf8Size) n = n + byteLength cs := by
  unfold byteLength
  induction cs generalizing n with
  | nil => rfl
  | cons c cs ih =>
    rw [List.foldl_cons, List.foldl_cons, ih, ih (0 + c.utf8Size), Nat.zero_add, Nat.add_assoc]

@[simp] theorem byteLength_nil : byteLength [] = 0 := rfl

@[simp] theorem byteLength_cons (c : Char) (cs : List Char) :
    byteLength (c :: cs) = c.utf8Size + byteLength cs := by
  rw [byteLength, List.foldl_cons, foldl_utf8Size, Nat.zero_add]

@[simp] theorem byteLength_append (cs ds : List Char) :
    byteLength (cs ++ ds) = byteLength cs + byteLength ds := by
  rw [byteLength, List.foldl_append, foldl_utf8Size]
  rfl

/-- The characters that start at an offset in `[lo, hi)`, where the first character is at
`offset`. -/
def sliceFrom (lo hi : Nat) : (offset : Nat) → List Char → List Char
  | _, [] => []
  | offset, c :: cs =>
    if lo ≤ offset ∧ offset < hi then c :: sliceFrom lo hi (offset + c.utf8Size) cs
    else sliceFrom lo hi (offset + c.utf8Size) cs

def breaksFrom : (offset : Nat) → List Char → List Nat
  | _, [] => []
  | offset, '\r' :: '\n' :: cs => (offset + 2) :: breaksFrom (offset + 2) cs
  | offset, c :: cs =>
    if c = '\n' ∨ c = '\r' then (offset + 1) :: breaksFrom (offset + 1) cs
    else breaksFrom (offset + c.utf8Size) cs

theorem lt_of_mem_breaksFrom {offset b : Nat} {cs : List Char} (h : b ∈ breaksFrom offset cs) :
    offset < b := by
  fun_induction breaksFrom offset cs with
  | case1 => cases h
  | case2 offset cs ih =>
    rcases List.mem_cons.1 h with rfl | h
    · omega
    · have := ih h
      omega
  | case3 offset c cs _ hc ih =>
    rcases List.mem_cons.1 h with rfl | h
    · omega
    · have := ih h
      omega
  | case4 offset c cs _ hc ih =>
    have := ih h
    omega

/-- A source text. A byte order mark at its start is not part of it. -/
structure Source where
  chars : List Char
deriving Repr, DecidableEq

namespace Source

def ofString (s : String) : Source :=
  match s.toList with
  | '\uFEFF' :: cs => ⟨cs⟩
  | cs => ⟨cs⟩

def size (src : Source) : Nat := byteLength src.chars

/-- The offsets at which lines start. An empty last line does not count. -/
def lineStarts (src : Source) : List Nat :=
  let size := src.size
  (0 :: breaksFrom 0 src.chars).filter (· < size)

/-- The line of an offset, counted from one; zero only in an empty text. -/
def lineAt (src : Source) (offset : Nat) : Nat :=
  src.lineStarts.countP (· ≤ offset)

def line? (src : Source) (span : Option Span) : Option Nat :=
  span.map fun s => src.lineAt s.start

/-- The text of a span as it is written; nothing for an absent span. -/
def snippet (src : Source) : Option Span → String
  | none => ""
  | some s => String.ofList (sliceFrom s.start s.stop 0 src.chars)

end Source

/-- The characters with the `White_Space` property. -/
def isBlank (c : Char) : Bool :=
  let n := c.toNat
  (9 ≤ n && n ≤ 13) || n == 0x20 || n == 0x85 || n == 0xA0 || n == 0x1680 ||
  (0x2000 ≤ n && n ≤ 0x200A) || n == 0x2028 || n == 0x2029 || n == 0x202F || n == 0x205F ||
  n == 0x3000

def trimStart (cs : List Char) : List Char :=
  cs.dropWhile isBlank

def trimEnd (cs : List Char) : List Char :=
  (trimStart cs.reverse).reverse

def trim (cs : List Char) : List Char :=
  trimEnd (trimStart cs)

theorem dropWhile_append_eq {α : Type} {p : α → Bool} {dropped rest : List α}
    (hd : ∀ a ∈ dropped, p a = true) (hr : ∀ a ∈ rest.head?, p a = false) :
    (dropped ++ rest).dropWhile p = rest := by
  rw [List.dropWhile_append_of_pos hd]
  cases rest with
  | nil => rfl
  | cons a as =>
    have ha : p a = false := hr a rfl
    rw [List.dropWhile_cons_of_neg (by simp [ha])]

/-- Text as a script engine holds it. -/
abbrev CodeUnits := List UInt16

namespace CodeUnits

def isHigh (u : UInt16) : Bool := 0xD800 ≤ u.toNat && u.toNat < 0xDC00

def isLow (u : UInt16) : Bool := 0xDC00 ≤ u.toNat && u.toNat < 0xE000

/-- The units of one code point, which may itself be a lone surrogate. -/
def ofCodePoint (n : Nat) : CodeUnits :=
  if n < 0x10000 then [n.toUInt16]
  else [(0xD800 + (n - 0x10000) / 0x400).toUInt16, (0xDC00 + (n - 0x10000) % 0x400).toUInt16]

def ofChars (cs : List Char) : CodeUnits :=
  cs.flatMap fun c => ofCodePoint c.toNat

def ofString (s : String) : CodeUnits :=
  ofChars s.toList

def joinPair (high low : UInt16) : Nat :=
  0x10000 + (high.toNat - 0xD800) * 0x400 + (low.toNat - 0xDC00)

/-- The characters that the units spell, if no surrogate stands alone. -/
def toChars? : CodeUnits → Option (List Char)
  | [] => some []
  | [u] => if isHigh u || isLow u then none else some [Char.ofNat u.toNat]
  | u :: v :: us =>
    if isHigh u then
      if isLow v then (toChars? us).map (Char.ofNat (joinPair u v) :: ·) else none
    else if isLow u then none
    else (toChars? (v :: us)).map (Char.ofNat u.toNat :: ·)

def toString? (us : CodeUnits) : Option String :=
  (toChars? us).map String.ofList

end CodeUnits

end MessageKeys.Text

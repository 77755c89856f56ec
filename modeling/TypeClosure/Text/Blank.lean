/-! Blank space and line ends, and the line on which a place of a text stands. -/

namespace TypeClosure.Text

/-- The characters that end a line inside a source text. -/
def isLineEnd (c : Char) : Bool :=
  c == '\n' || c == '\r' || c == '\u2028' || c == '\u2029'

/-- Blank characters: those of Unicode's white space, the zero width space and the byte order
mark. -/
def isBlank (c : Char) : Bool :=
  let n := c.toNat
  (9 ≤ n && n ≤ 13) || n == 0x20 || n == 0x85 || n == 0xa0 || n == 0x1680 ||
    (0x2000 ≤ n && n ≤ 0x200b) || n == 0x2028 || n == 0x2029 || n == 0x202f || n == 0x205f ||
    n == 0x3000 || n == 0xfeff

/-- The number of lines that a text ends: by a line feed, a carriage return, or one of each. -/
def lineEnds : List Char → Nat
  | [] => 0
  | '\r' :: '\n' :: rest => lineEnds rest + 1
  | c :: rest => if c == '\n' || c == '\r' then lineEnds rest + 1 else lineEnds rest

/-- The line, counted from one, of the character at `offset`. -/
def lineAt (text : List Char) (offset : Nat) : Nat :=
  lineEnds (text.take offset) + 1

/-- A text without the byte order mark in front. -/
def withoutByteOrderMark : List Char → List Char
  | '\ufeff' :: rest => rest
  | text => text

end TypeClosure.Text

/-! Places in a text, and the text between two of them. -/

namespace TypeClosure

/-- A place in a text: how many characters stand before it, and what follows. -/
structure Cursor where
  offset : Nat
  rest : List Char
deriving Repr, DecidableEq, Inhabited

namespace Cursor

/-- The place in front of a text. -/
def ofText (text : List Char) : Cursor := ⟨0, text⟩

/-- The place `n` characters further on. -/
def drop (n : Nat) (c : Cursor) : Cursor := ⟨c.offset + n, c.rest.drop n⟩

/-- The text from one place to a later one. -/
def textTo (first last : Cursor) : String :=
  String.ofList (first.rest.take (last.offset - first.offset))

/-- What stands at a place up to the first character that fails `p`. -/
def takeWhile (p : Char → Bool) (c : Cursor) : List Char := c.rest.takeWhile p

/-- The place behind the characters that pass `p`. -/
def dropWhile (p : Char → Bool) (c : Cursor) : Cursor := c.drop (c.takeWhile p).length

def next? (c : Cursor) : Option Char := c.rest.head?

@[simp] theorem offset_ofText (text : List Char) : (ofText text).offset = 0 := rfl
@[simp] theorem rest_ofText (text : List Char) : (ofText text).rest = text := rfl
@[simp] theorem offset_drop (n : Nat) (c : Cursor) : (c.drop n).offset = c.offset + n := rfl
@[simp] theorem rest_drop (n : Nat) (c : Cursor) : (c.drop n).rest = c.rest.drop n := rfl

end Cursor

end TypeClosure

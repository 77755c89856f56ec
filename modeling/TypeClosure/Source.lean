import TypeClosure.Grammar.Module

/-! Source files, read to their outlines. -/

namespace TypeClosure

/-- A file by its path, its text, and the outline of that text. -/
structure Source where
  path : String
  text : List Char
  items : List Node

/-- Reads a text, if it follows the grammar that its path selects. -/
def Source.read? (path text : String) : Option Source :=
  let chars := Text.withoutByteOrderMark text.toList
  (outline? path chars).map (Source.mk path chars)

end TypeClosure

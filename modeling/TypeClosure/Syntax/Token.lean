import TypeClosure.Text.Cursor

/-! The tokens of TypeScript. -/

namespace TypeClosure.Syntax

/-- Punctuation. `langle` and `rangle` are always single characters; longer operators that begin
with them are put together where an operator is expected. `operator` holds the precedence of a
binary operator that plays no other part. -/
inductive Mark where
  | lbrace | rbrace | lparen | rparen | lbracket | rbracket
  | dot | ellipsis | semicolon | comma | colon | question | questionDot | arrow
  | equals | assignOp
  | langle | rangle | plus | minus | star | slash | bar | ampersand | caret | power
  | bang | tilde | increment | decrement
  | operator (precedence : Nat)
  | backquote | hash
deriving Repr, DecidableEq, Inhabited

inductive Lexeme where
  /-- A name or keyword; `escaped` when it begins with an escape, and then never a keyword. -/
  | word (name : String) (escaped : Bool)
  | mark (mark : Mark)
  | number
  | bigint
  /-- The value is missing when it holds a surrogate without its partner. -/
  | string (value : Option String)
  | endOfText
  | invalid
deriving Repr, DecidableEq, Inhabited

/-- A lexeme with its place, and whether a line ended between it and the token before. -/
structure Token where
  lexeme : Lexeme
  first : Cursor
  last : Cursor
  onNewLine : Bool
deriving Repr, DecidableEq, Inhabited

/-- Words that are never names. -/
def keywords : List String :=
  ["break", "case", "catch", "class", "const", "continue", "debugger", "default", "delete", "do",
   "else", "enum", "export", "extends", "finally", "for", "function", "if", "import", "in",
   "instanceof", "new", "return", "super", "switch", "this", "throw", "try", "typeof", "var",
   "void", "while", "with", "null", "true", "false"]

/-- Words that modules reserve beside the keywords. -/
def moduleReservedWords : List String :=
  ["let", "static", "yield", "await", "implements", "interface", "package", "private",
   "protected", "public"]

namespace Token

def isMark (t : Token) (m : Mark) : Bool := t.lexeme == .mark m

def isWord (t : Token) (w : String) : Bool := t.lexeme == .word w false

/-- A word with these characters, escaped or not. -/
def spells (t : Token) (w : String) : Bool :=
  match t.lexeme with
  | .word name _ => name == w
  | _ => false

/-- Any word, keywords included. -/
def isAnyWord (t : Token) : Bool :=
  match t.lexeme with
  | .word _ _ => true
  | _ => false

/-- A word that can name a value in a module. -/
def isReference (t : Token) : Bool :=
  match t.lexeme with
  | .word _ true => true
  | .word w false => !keywords.contains w && !moduleReservedWords.contains w
  | _ => false

def isString (t : Token) : Bool :=
  match t.lexeme with
  | .string _ => true
  | _ => false

def isNumeric (t : Token) : Bool := t.lexeme == .number || t.lexeme == .bigint

def isEnd (t : Token) : Bool := t.lexeme == .endOfText

end Token

end TypeClosure.Syntax

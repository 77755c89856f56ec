import TypeClosure.Outline
import TypeClosure.Syntax.Scan

/-!
Rules of the grammar: a rule reads tokens and fails where the text does not follow it. The rules
refer to one another; each takes the others, as far as nesting brings it back to them, from a
record of rules that hold one level of nesting further in.
-/

namespace TypeClosure.Grammar

open Syntax

/-- The forms of TypeScript that the name of a file selects. -/
structure Dialect where
  jsx : Bool
  declarationFile : Bool
deriving Repr, DecidableEq

/-- Files in `.tsx` hold JSX, files in `.d.ts` declarations only. -/
def Dialect.ofPath (path : String) : Dialect :=
  ⟨".tsx".toList.isSuffixOf path.toList, ".d.ts".toList.isSuffixOf path.toList⟩

/-- What surrounds the place that is read. `size` bounds the number of tokens of the text. -/
structure Surroundings where
  size : Nat
  dialect : Dialect
  ambient : Bool
  async : Bool := false
  generator : Bool := false
  /-- Whether `in` is an operator. It is one only inside of what brackets, parentheses and
  statements enclose. -/
  allowsIn : Bool := false
  /-- In one of the branches of a conditional expression. -/
  inConditional : Bool := false
  /-- In the branch in front of the colon of a conditional expression. -/
  expectsColon : Bool := false
  /-- Where an arrow function may begin. -/
  arrowAt : Option Nat := none
  /-- Whether `extends` continues a type to a conditional one. -/
  conditionalTypes : Bool := true

/-- The next token, and the end of the last one that was taken. -/
structure Position where
  token : Token
  taken : Cursor

abbrev Parse := ReaderT Surroundings (StateT Position Option)

/-- What later rules ask of an expression. -/
inductive Shape where
  | identifier (name : String)
  | arrow
  /-- A unary or awaited operand, which may not stand on the left of `**`. -/
  | unary
  /-- An operation or a conditional, which no assignment follows. -/
  | operation
  /-- An object or array literal that cannot be read as a pattern. -/
  | unassignable
  | other
deriving DecidableEq, Inhabited

/-- An expression, as its shape and the code that it holds. -/
structure Expr where
  shape : Shape
  code : List LocalCode
deriving Inhabited

/-- A binding pattern, as the code that it holds. -/
structure Pattern where
  isIdentifier : Bool
  hasDefault : Bool := false
  code : List LocalCode
deriving Inhabited

/-- A type with the code that it holds. -/
structure TypeSyntax where
  type : TypeExpr
  code : List LocalCode

/-- The rules that nesting comes back to. -/
structure Rules where
  type : Parse TypeSyntax
  /-- A type that is not conditional, where none may begin. -/
  boundType : Parse TypeSyntax
  typeOperand : Parse TypeSyntax
  pattern : Parse Pattern
  assignment : Parse Expr
  /-- An expression without assignments and conditionals. -/
  binary : Parse Expr
  unary : Parse Expr
  /-- An operand with what is applied to it; the flag tells whether calls are a part of it. -/
  applied : Bool → Parse Expr
  element : Parse (List LocalCode)
  /-- What an interface extends or a class implements, with its text. -/
  heritage : Parse (String × List LocalCode)
  /-- A statement; the flag tells whether declarations with `let` and `const` may stand here. -/
  statement : Bool → Parse Node
  moduleItem : Parse Node

def Rules.none : Rules where
  type := failure
  boundType := failure
  typeOperand := failure
  pattern := failure
  assignment := failure
  binary := failure
  unary := failure
  applied := fun _ => failure
  element := failure
  heritage := failure
  statement := fun _ => failure
  moduleItem := failure

/-! ### Looking at tokens -/

def token : Parse Token := return (← get).token

/-- The token behind the next one. -/
def tokenAfter : Parse Token := return Token.scan (← get).token.last

def isAt (m : Mark) : Parse Bool := return (← token).isMark m

def isAtWord (w : String) : Parse Bool := return (← token).isWord w

def isAtAnyWord : Parse Bool := return (← token).isAnyWord

def isAtReference : Parse Bool := return (← token).isReference

def isAtEnd : Parse Bool := return (← token).isEnd

def onNewLine : Parse Bool := return (← token).onNewLine

/-- Where the next token starts. -/
def here : Parse Cursor := return (← token).first

/-- The text from a place to the end of the last token taken. -/
def textFrom (first : Cursor) : Parse String := return first.textTo (← get).taken

/-! ### Taking tokens -/

/-- Goes on from a place behind what has been taken. -/
def resume (taken : Cursor) : Parse Unit := set (Position.mk (Token.scan taken) taken)

def advance : Parse Unit := do resume (← token).last

def eat (m : Mark) : Parse Bool := do
  if ← isAt m then
    advance
    return true
  else return false

def eatWord (w : String) : Parse Bool := do
  if ← isAtWord w then
    advance
    return true
  else return false

/-- Takes one of several marks. -/
def eatOneOf (marks : List Mark) : Parse Bool := do
  match (← token).lexeme with
  | .mark m =>
      if marks.contains m then
        advance
        return true
      else return false
  | _ => return false

def require (b : Bool) : Parse Unit := if b then pure () else failure

def expect (m : Mark) : Parse Unit := do require (← eat m)

def expectWord (w : String) : Parse Unit := do require (← eatWord w)

/-- Any word, as a name. -/
def name : Parse String := do
  match (← token).lexeme with
  | .word w _ => advance; return w
  | _ => failure

/-- A private name; nothing stands between the hash and the name. -/
def privateName : Parse Unit := do
  let hash ← token
  expect .hash
  require ((← here) == hash.last)
  let _ ← name

/-- A name behind a dot. -/
def selectedName : Parse Unit := do
  if ← isAt .hash then privateName
  else let _ ← name

/-- A name that is declared or referred to: no keyword but `this`, and `await` only where no
code runs. -/
def boundName : Parse String := do
  match (← token).lexeme with
  | .word w false =>
      require (w == "this" || w == "enum" || !keywords.contains w)
      require (w != "await" || (← read).ambient)
      advance
      return w
  | .word w true => advance; return w
  | _ => failure

/-- Whether a statement may end here. -/
def mayEndStatement : Parse Bool := do
  let t ← token
  return t.isMark .semicolon || t.isMark .rbrace || t.isEnd || t.onNewLine

/-- Ends a statement where it may end, taking its semicolon. -/
def eatStatementEnd : Parse Bool := do
  if ← eat .semicolon then return true else mayEndStatement

def endStatement : Parse Unit := do require (← eatStatementEnd)

/-! ### Putting rules together -/

/-- Reads by a rule, or stays where it is when the rule fails. -/
def attempt (rule : Parse α) : Parse (Option α) := fun surroundings position =>
  match rule surroundings position with
  | some (a, next) => some (some a, next)
  | none => some (none, position)

/-- Asks a rule without taking anything. A rule that fails answers no. -/
def lookAhead (rule : Parse Bool) : Parse Bool := fun surroundings position =>
  match rule surroundings position with
  | some (b, _) => some (b, position)
  | none => some (false, position)

/-- Repeats a rule until it answers nothing, `n` times at most. -/
def repeatUpTo : Nat → Parse (Option α) → Parse (List α)
  | 0, _ => failure
  | n + 1, rule => do
      match ← rule with
      | none => return []
      | some a => return a :: (← repeatUpTo n rule)

def repeated (rule : Parse (Option α)) : Parse (List α) := do repeatUpTo (← read).size rule

def separatedUpTo : Nat → Parse Bool → Parse α → Parse (List α)
  | 0, _, _ => failure
  | n + 1, stop, rule => do
      if ← stop then return []
      let a ← rule
      if ← eat .comma then return a :: (← separatedUpTo n stop rule)
      require (← stop)
      return [a]

/-- Items with commas between them and perhaps behind them, in front of what `stop` finds. -/
def separated (stop : Parse Bool) (rule : Parse α) : Parse (List α) := do
  separatedUpTo (← read).size stop rule

/-- Reads by a rule with an operator `in`, outside of the branches of a conditional. -/
def nested (rule : Parse α) : Parse α :=
  withReader (fun s => { s with allowsIn := true, expectsColon := false }) rule

end TypeClosure.Grammar

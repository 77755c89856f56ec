import TypeClosure.Grammar.Element
import TypeClosure.Grammar.Function

/-!
Expressions. Of an expression there remains the code that it holds, in the order in which a
declaration inside it is found: what is applied comes before its arguments, and values come
before the types that are written beside them.
-/

namespace TypeClosure.Grammar

open Syntax

variable (rules : Rules)

/-- Whether an expression may begin with a token. -/
def startsExpression (t : Token) : Bool :=
  match t.lexeme with
  | .word w false =>
      !(["in", "instanceof", "as", "satisfies", "of", "else", "extends"].contains w)
  | .word _ true | .number | .bigint | .string _ => true
  | .mark m =>
      [.lparen, .lbracket, .lbrace, .bang, .tilde, .plus, .minus, .increment, .decrement,
        .langle, .backquote, .hash].contains m
  | _ => false

/-! ### Literals -/

def spreadable : Parse Expr := do
  let _ ← eat .ellipsis
  nested rules.assignment

def arrayLiteral : Parse Expr := do
  expect .lbracket
  let list ← elements (spreadable rules)
  let isPattern := list.all (·.shape != .unassignable)
  return ⟨if isPattern then .other else .unassignable, list.flatMap Expr.code⟩

/-- A property of an object literal; tells whether it can be read as a part of a pattern. -/
def objectProperty : Parse (Bool × List LocalCode) := do
  if ← eat .ellipsis then
    let e ← nested rules.assignment
    return (e.shape != .unassignable, e.code)
  if ← eat .star then
    let key ← propertyName rules
    return (false, key ++ [← functionRest rules .function false true])
  skipParameterModifier
  let t ← token
  let key ← propertyName rules
  if ← eat .colon then
    let e ← nested rules.assignment
    return (e.shape != .unassignable, key ++ e.code)
  if (← isAt .lparen) || (← isAt .langle) then
    return (false, key ++ [← functionRest rules .function false false])
  match t.lexeme with
  | .word w _ =>
      let _ ← eat .question
      if (← isAt .comma) || (← isAt .rbrace) then return (true, [])
      if let some e ← initializer? rules then return (true, e.code)
      if w == "get" || w == "set" then
        let key ← propertyName rules
        return (false, key ++ [← functionRest rules .accessor false false])
      require (w == "async")
      let generator ← eat .star
      let key ← propertyName rules
      return (false, key ++ [← functionRest rules .function true generator])
  | _ =>
      require (← isAt .rbrace)
      return (false, key)

/-- An object literal. -/
def objectLiteral : Parse Expr := do
  expect .lbrace
  let list ← separated (isAt .rbrace) (objectProperty rules)
  expect .rbrace
  let isPattern := list.all Prod.fst
  return ⟨if isPattern then .other else .unassignable, list.flatMap Prod.snd⟩

def templateLiteral (isTagged : Bool) : Parse (List LocalCode) :=
  template isTagged (return (← nested (expression rules)).code)

/-! ### Arrow functions -/

def arrowExpression (async : Bool) (code : List LocalCode) : Parse (Bool × Expr) := do
  let (isBlock, body) ← arrowBody rules async
  return (isBlock, ⟨.arrow, [.of .arrow code body]⟩)

/-- An expression or parameter in parentheses. -/
structure ParenthesizedItem where
  isParameter : Bool
  isSpread : Bool
  expr : Expr

/-- The assignment that an expression goes on with, if there is one. -/
def assignmentFrom (target : Expr) : Parse Expr := do
  let t := (← token).asOperator
  if t.isMark .equals || t.isMark .assignOp then
    require (!t.isMark .equals || target.shape != .unassignable)
    resume t.last
    let value ← rules.assignment
    return ⟨.other, target.code ++ value.code⟩
  else return target

def mayBeTarget (e : Expr) : Bool := e.shape != .arrow && e.shape != .operation

/-- The branches of a conditional expression, from its question mark on. -/
def branches : Parse (List LocalCode) := do
  expect .question
  let yes ← withReader
    (fun s => { s with allowsIn := true, inConditional := true, expectsColon := true })
    rules.assignment
  expect .colon
  let no ← withReader (fun s => { s with inConditional := true, expectsColon := false })
    rules.assignment
  return yes.code ++ no.code

def parenthesizedItem : Parse ParenthesizedItem := do
  let first ← here
  skipParameterModifier
  let isSpread ← eat .ellipsis
  let plain ← withReader (fun s => { s with arrowAt := some first.offset }) <|
    if ← isAtReference then do
      let e ← rules.binary
      if isSpread || !mayBeTarget e then return e else assignmentFrom rules e
    else rules.assignment
  let next ← tokenAfter
  if (← isAt .question) && (next.isMark .comma || next.isMark .colon || next.isMark .rparen ||
      next.isMark .equals) then
    advance
    match plain.shape with
    | .identifier _ =>
        let ascription ← typeAnnotationCode rules
        let value ← initializer? rules
        return ⟨true, isSpread,
          ⟨.other, plain.code ++ ascription ++ (value.map Expr.code).getD []⟩⟩
    | _ => failure
  let e ←
    if (← isAt .question) && !isSpread then do
      pure ⟨Shape.operation, plain.code ++ (← branches rules)⟩
    else pure plain
  if ← isAt .colon then
    require (e.shape != .unassignable)
    let ascription ← typeAnnotationCode rules
    let value ← initializer? rules
    return ⟨true, isSpread, ⟨.other, e.code ++ ascription ++ (value.map Expr.code).getD []⟩⟩
  else return ⟨false, isSpread, e⟩

/-- Whether a binary operator comes next, and with which precedence. -/
def binaryOperator? : Parse (Option (Nat × Token)) := do
  let t := (← token).asOperator
  match t.lexeme with
  | .mark .plus | .mark .minus => return some (9, t)
  | .mark .star | .mark .slash => return some (10, t)
  | .mark .power => return some (11, t)
  | .mark .bar => return some (3, t)
  | .mark .caret => return some (4, t)
  | .mark .ampersand => return some (5, t)
  | .mark (.operator precedence) => return some (precedence, t)
  | .word "in" false => if (← read).allowsIn then return some (7, t) else return none
  | .word "instanceof" false => return some (7, t)
  | _ => return none

/-- Goes on with the operators that bind tighter than `least`. -/
def operationsUpTo : Nat → Nat → Expr → Parse Expr
  | 0, _, _ => failure
  | n + 1, least, left => do
      let t ← token
      if least < 7 && !t.onNewLine && (t.isWord "as" || t.isWord "satisfies") then
        advance
        if t.isWord "as" && (← isAtWord "const") then
          advance
          operationsUpTo n least ⟨.other, left.code⟩
        else
          let type ← rules.type
          operationsUpTo n least ⟨.other, left.code ++ type.code⟩
      else
        match ← binaryOperator? with
        | none => return left
        | some (precedence, operator) =>
            if precedence ≤ least then return left
            require (!(operator.isMark .power && left.shape == .unary))
            resume operator.last
            let operand ← rules.unary
            let right ← operationsUpTo n
              (if operator.isMark .power then precedence - 1 else precedence) operand
            operationsUpTo n least ⟨.operation, left.code ++ right.code⟩

/-- Goes on with any operators. -/
def operations (left : Expr) : Parse Expr := do operationsUpTo rules (← read).size 0 left

/-- What an arrow function with a block goes on with, where an operator follows it. -/
def behindArrow (isBlock : Bool) (e : Expr) : Parse Expr := do
  if isBlock && (← binaryOperator?).isSome then operations rules ⟨.other, e.code⟩ else return e

/-- Expressions in parentheses, the arguments of a call of `async`, or the parameters of an arrow
function together with that function. In a branch of a conditional expression a colon behind
the parentheses begins a result type only if an arrow function can be read from there. -/
def parenthesized (async : Bool) : Parse Expr := do
  let start ← here
  expect .lparen
  let list ← nested (separated (isAt .rparen) (parenthesizedItem rules))
  expect .rparen
  let code := list.flatMap (·.expr.code)
  let isParameters := list.all (·.expr.shape != .unassignable)
  let s ← read
  if s.inConditional && (← isAt .colon) then
    let arrow ← attempt do
      let output ← returnType rules .colon
      expect .arrow
      require isParameters
      let (_, e) ← arrowExpression rules async (code ++ output)
      require (!s.expectsColon || (← isAt .colon))
      return e
    if let some e := arrow then return e
  let output ←
    if !s.expectsColon && (← isAt .colon) then
      attempt do
        let output ← returnType rules .colon
        require (← isAt .arrow)
        return output
    else pure none
  if list.any (·.isParameter) || output.isSome || (← isAt .arrow) then
    require (!(← onNewLine) && isParameters)
    require (async || s.arrowAt == some start.offset)
    expect .arrow
    let (isBlock, e) ← arrowExpression rules async (code ++ output.getD [])
    behindArrow rules isBlock e
  else if async then return ⟨.other, code⟩
  else
    require (!list.isEmpty && list.all (!·.isSpread))
    return ⟨.other, code⟩

/-! ### Operands -/

/-- The arguments of a call. -/
def callArguments : Parse (List LocalCode) := do
  expect .lparen
  let list ← separated (isAt .rparen) (spreadable rules)
  expect .rparen
  return list.flatMap Expr.code

/-- The word `async` in front of a function, or as a name. -/
def asyncExpression : Parse Expr := do
  let start ← here
  let mayBeArrow := (← read).arrowAt == some start.offset
  expectWord "async"
  let t ← token
  if t.onNewLine then return ⟨.identifier "async", []⟩
  if t.isWord "function" then return ⟨.other, [← function rules true false]⟩
  if mayBeArrow && t.isReference then
    advance
    if t.isWord "as" && !(← isAt .arrow) then return ⟨.other, (← rules.type).code⟩
    expect .arrow
    return (← arrowExpression rules true []).2
  if mayBeArrow && t.isMark .lparen then return ← parenthesized rules true
  if mayBeArrow && t.isMark .langle then
    let generic ← attempt do
      let generics ← typeParameters rules
      expect .lparen
      let list ← nested (parameters rules)
      let output ← returnAnnotation rules
      require !(← onNewLine)
      expect .arrow
      return (← arrowExpression rules true (list.flatMap Pattern.code ++ generics ++ output)).2
    if let some e := generic then return e
  return ⟨.identifier "async", []⟩

/-- An operand that nothing has been applied to. -/
def primary : Parse Expr := do
  let t ← token
  match t.lexeme with
  | .number | .bigint | .string _ => advance; return ⟨.other, []⟩
  | .mark .hash =>
      advance
      let _ ← name
      return ⟨.other, []⟩
  | .mark .lbracket => arrayLiteral rules
  | .mark .lbrace => objectLiteral rules
  | .mark .lparen => parenthesized rules false
  | .mark .backquote => return ⟨.other, ← templateLiteral rules false⟩
  | .mark .slash | .mark .assignOp =>
      require (t.first.next? == some '/')
      match regexEnd? t.first with
      | some last => resume last; return ⟨.other, []⟩
      | none => failure
  | .word w escaped =>
      if t.isWord "this" || t.isWord "null" || t.isWord "true" || t.isWord "false" then
        advance
        return ⟨.other, []⟩
      else if t.isWord "function" then return ⟨.other, [← function rules false false]⟩
      else if t.isWord "class" then
        return ⟨.other, [← classRest rules false]⟩
      else if t.isWord "async" then asyncExpression rules
      else
        require (t.isReference || t.isWord "let" || ((← read).ambient && t.isWord "await"))
        advance
        if (← isAt .arrow) && !(← onNewLine) &&
            (← read).arrowAt == some t.first.offset && !escaped then
          advance
          return (← arrowExpression rules false []).2
        else return ⟨.identifier w, []⟩
  | _ => failure

/-- Whether type arguments in an expression end here, or were a comparison. -/
def mayFollowTypeArguments : Parse Bool := do
  let t ← token
  if t.isMark .langle || t.isMark .rangle || t.isMark .plus || t.isMark .minus then return false
  else return t.onNewLine || !startsExpression t

/-- A member, call or other suffix, and whether more may follow. -/
def suffix? (calls brackets : Bool) (e : Expr) : Parse (Option Expr) := do
  let t ← token
  match t.lexeme with
  | .mark .bang =>
      if t.onNewLine then return none
      advance
      return some ⟨.other, e.code⟩
  | .mark .langle =>
      attempt do
        let arguments ← typeArguments rules
        if calls && (← isAt .lparen) then
          return ⟨.other, e.code ++ (← callArguments rules) ++ arguments⟩
        else if ← isAt .backquote then
          return ⟨.other, e.code ++ arguments ++ (← templateLiteral rules true)⟩
        else
          require (← mayFollowTypeArguments)
          return ⟨.other, e.code ++ arguments⟩
  | .mark .questionDot =>
      advance
      if ← isAt .lparen then
        return some ⟨.other, e.code ++ (← callArguments rules)⟩
      else if brackets && (← isAt .lbracket) then
        advance
        let index ← nested (expression rules)
        expect .rbracket
        return some ⟨.other, e.code ++ index.code⟩
      else if ← isAt .backquote then
        return some ⟨.other, e.code ++ (← templateLiteral rules true)⟩
      else if ← isAt .langle then
        let arguments ← typeArguments rules
        return some ⟨.other, e.code ++ (← callArguments rules) ++ arguments⟩
      else
        selectedName
        return some ⟨.other, e.code⟩
  | .mark .dot =>
      advance
      selectedName
      return some ⟨.other, e.code⟩
  | .mark .lbracket =>
      if !brackets then return none
      advance
      let index ← nested (expression rules)
      expect .rbracket
      return some ⟨.other, e.code ++ index.code⟩
  | .mark .lparen =>
      if !calls then return none
      return some ⟨.other, e.code ++ (← callArguments rules)⟩
  | .mark .backquote => return some ⟨.other, e.code ++ (← templateLiteral rules true)⟩
  | _ => return none

def suffixesUpTo : Nat → Bool → Bool → Expr → Parse Expr
  | 0, _, _, _ => failure
  | n + 1, calls, brackets, e => do
      match ← suffix? rules calls brackets e with
      | some next => suffixesUpTo n calls brackets next
      | none => return e

/-- An operand with what is applied to it. -/
def suffixes (calls brackets : Bool) (e : Expr) : Parse Expr := do
  if e.shape == .arrow then return e
  else suffixesUpTo rules (← read).size calls brackets e

/-- An import inside of an expression: `import(..)` or `import.meta`. -/
def importExpression : Parse Expr := do
  expectWord "import"
  if ← eat .dot then
    let _ ← name
    return ⟨.other, []⟩
  else return ⟨.other, ← callArguments rules⟩

/-- A construction `new A<B>(..)`, or `new.target`. -/
def newExpression : Parse Expr := do
  expectWord "new"
  if ← eat .dot then
    expectWord "target"
    return ⟨.other, []⟩
  let callee ← rules.applied false
  require (callee.shape != .arrow)
  let arguments ← if ← isAt .langle then attempt (typeArguments rules) else pure none
  let inputs ← if ← isAt .lparen then callArguments rules else pure []
  return ⟨.other, callee.code ++ inputs ++ arguments.getD []⟩

/-- An operand in front of its suffixes. -/
def head : Parse Expr := do
  if ← isAtWord "new" then newExpression rules
  else if ← isAtWord "import" then importExpression rules
  else if ← eatWord "super" then return ⟨.other, []⟩
  else primary rules

/-- An operand with what is applied to it, or a JSX element. -/
def applied (calls : Bool) : Parse Expr := do
  if (← read).dialect.jsx && (← isAt .langle) then return ⟨.other, ← rules.element⟩
  suffixes rules calls true (← head rules)

def awaited : Parse Expr := do
  expectWord "await"
  let t ← token
  require (!(t.isMark .rparen || t.isMark .rbracket || t.isMark .semicolon || t.isMark .comma))
  return ⟨.unary, (← rules.unary).code⟩

/-- An operand with the operators in front of it and behind it. -/
def unary : Parse Expr := do
  let t ← token
  if t.isMark .langle && !(← read).dialect.jsx then
    advance
    if (← isAtWord "const") && (← tokenAfter).isMark .rangle then
      advance
      advance
      return ⟨.other, (← rules.unary).code⟩
    else
      let type ← rules.type
      expect .rangle
      return ⟨.other, (← rules.unary).code ++ type.code⟩
  else if t.isMark .increment || t.isMark .decrement then
    advance
    return ⟨.operation, (← rules.unary).code⟩
  else if t.isMark .plus || t.isMark .minus || t.isMark .bang || t.isMark .tilde ||
      t.isWord "delete" || t.isWord "void" || t.isWord "typeof" then
    advance
    return ⟨.unary, (← rules.unary).code⟩
  else if t.isWord "await" && !(← read).ambient then awaited rules
  else
    let e ← applied rules true
    if e.shape == .arrow then return e
    let behind ← token
    if !behind.onNewLine && (behind.isMark .increment || behind.isMark .decrement) then
      advance
      return ⟨.operation, e.code⟩
    else return e

/-- Whether an operator comes next that needs an operand in front of it. -/
def lacksOperand : Parse Bool := do
  match ← binaryOperator? with
  | none => return false
  | some (_, t) =>
      return !(t.isMark .plus || t.isMark .minus || t.isMark .slash ||
        ((← isAt .langle) && (← token).last == t.last))

/-- An expression without assignments and conditionals. Its first operand may be missing. -/
def binary : Parse Expr := do
  let e ← if ← lacksOperand then pure ⟨.other, []⟩ else unary rules
  if e.shape == .arrow then return e else operations rules e

/-- Whether an angle bracket may begin the type parameters of an arrow function. Beside JSX a
constraint or a comma has to tell them from an element. -/
def mayBeGeneric : Parse Bool := do
  if !(← isAt .langle) then return false
  else if !(← read).dialect.jsx then return (← tokenAfter).isAnyWord
  else lookAhead do
    advance
    let _ ← eatWord "const"
    let _ ← name
    if ← eatWord "extends" then
      return !((← isAt .equals) || (← isAt .rangle) || (← isAt .slash))
    else return (← isAt .comma) || (← isAt .equals)

/-- An arrow function with type parameters. -/
def genericArrow : Parse Expr := withReader (fun s => { s with expectsColon := false }) do
  let generics ← typeParameters rules
  let e ← rules.assignment
  match e with
  | ⟨.arrow, [.mk .arrow parts]⟩ => return ⟨.arrow, [.of .arrow generics parts]⟩
  | _ => failure

def yieldExpression : Parse Expr := do
  expectWord "yield"
  let t ← token
  if t.onNewLine then return ⟨.operation, []⟩
  let delegates ← eat .star
  if delegates || startsExpression (← token) || (← token).first.next? == some '/' then
    return ⟨.operation, (← rules.assignment).code⟩
  else return ⟨.operation, []⟩

/-- An expression without commas. -/
def assignment : Parse Expr := do
  let first ← here
  withReader (fun s => { s with arrowAt := some first.offset }) do
    if ← mayBeGeneric then
      if let some e ← attempt (genericArrow rules) then return e
    if (← read).generator && (← isAtWord "yield") then return ← yieldExpression rules
    let test ← binary rules
    if test.shape == .arrow then return test
    if ← isAt .question then return ⟨.operation, test.code ++ (← branches rules)⟩
    if test.shape == .operation || test.shape == .unary then return test
    assignmentFrom rules test

end TypeClosure.Grammar

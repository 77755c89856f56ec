import TypeClosure.Grammar.Declaration

/-! Statements. Of a statement there remain its declarations and the code that it holds. -/

namespace TypeClosure.Grammar

open Syntax

variable (rules : Rules)

def ofCode (code : List LocalCode) : Node := .statement (code.map Node.code)

def substatement : Parse Node := rules.statement false

def condition : Parse (List Node) := do
  expect .lparen
  let e ← nested (expression rules)
  expect .rparen
  return e.code.map Node.code

def jumpStatement : Parse Node := do
  advance
  if !(← eatStatementEnd) then
    let _ ← boundName
    endStatement
  return .statement []

def ifStatement : Parse Node := do
  advance
  let test ← condition rules
  let yes ← substatement rules
  if ← eatWord "else" then return .statement (test ++ [yes, ← substatement rules])
  else return .statement (test ++ [yes])

/-- The condition of a loop is looked at in front of its body, also where it is written behind. -/
def doStatement : Parse Node := do
  advance
  let body ← substatement rules
  expectWord "while"
  let test ← condition rules
  let _ ← eatStatementEnd
  return .statement (test ++ [body])

def whileStatement : Parse Node := do
  advance
  let test ← condition rules
  return .statement (test ++ [← substatement rules])

/-- Test and update of a loop, from behind the first semicolon on. -/
def loopControl : Parse (List LocalCode) := do
  let test ← if ← isAt .semicolon then pure [] else pure (← nested (expression rules)).code
  expect .semicolon
  let update ← if ← isAt .rparen then pure [] else pure (← nested (expression rules)).code
  return test ++ update

/-- What a loop goes through, from its word `of` or `in` on. -/
def loopRange : Parse (List LocalCode) := do
  if ← eatWord "of" then return (← nested rules.assignment).code
  else
    expectWord "in"
    return (← nested (expression rules)).code

def isAtRange : Parse Bool := return (← isAtWord "of") || (← isAtWord "in")

def startsUsing : Parse Bool := do
  let next ← tokenAfter
  return (← isAtWord "using") && next.isReference && !next.onNewLine && !next.isWord "of"

/-- Resources behind `using`. -/
def usingVariables : Parse (List LocalCode) := do
  expectWord "using"
  let list ← repeated do
    if ← mayEndStatement then return none
    let p ← rules.pattern
    let ascription ← typeAnnotationCode rules
    let value ← if ← eat .equals then pure (← rules.assignment).code else pure []
    let _ ← eat .comma
    return some (p.code ++ ascription ++ value)
  return list.flatten

/-- The head of a `for` loop between its parentheses; tells whether it is one with `of`. -/
def loopHead : Parse (Bool × List LocalCode) := do
  let next ← tokenAfter
  if (← isAtWord "var") || (← isAtWord "const") || ((← isAtWord "let") && followsLet next) then
    let code ← withReader (fun s => { s with allowsIn := false }) (variableList rules true)
    if ← isAtRange then
      let isOf ← isAtWord "of"
      return (isOf, code ++ (← loopRange rules))
    expect .semicolon
    return (false, code ++ (← loopControl rules))
  else if ← eat .semicolon then return (false, ← loopControl rules)
  else if (← startsUsing) || ((← isAtWord "await") && next.isWord "using") then
    let _ ← eatWord "await"
    expectWord "using"
    let p ← rules.pattern
    if ← isAtRange then
      let isOf ← isAtWord "of"
      return (isOf, p.code ++ (← loopRange rules))
    else
      expect .equals
      let value ← rules.assignment
      expect .semicolon
      return (false, p.code ++ value.code ++ (← loopControl rules))
  else
    let e ← withReader (fun s => { s with allowsIn := false }) (expression rules)
    if ← isAtRange then
      require (e.shape != .unassignable)
      let isOf ← isAtWord "of"
      return (isOf, e.code ++ (← loopRange rules))
    expect .semicolon
    return (false, e.code ++ (← loopControl rules))

def forStatement : Parse Node := do
  advance
  let isAwaited ← eatWord "await"
  expect .lparen
  let (isOf, code) ← loopHead rules
  expect .rparen
  require (!isAwaited || isOf)
  return .statement (code.map Node.code ++ [← substatement rules])

def returnStatement : Parse Node := do
  advance
  if ← eatStatementEnd then return .statement []
  let e ← nested (expression rules)
  endStatement
  return ofCode e.code

def throwStatement : Parse Node := do
  advance
  require !(← onNewLine)
  let e ← nested (expression rules)
  endStatement
  return ofCode e.code

def switchCase : Parse (List Node) := do
  let test ←
    if ← eatWord "case" then pure (← nested (expression rules)).code
    else do
      expectWord "default"
      pure []
  expect .colon
  let body ← repeated do
    if (← isAtWord "case") || (← isAtWord "default") || (← isAt .rbrace) || (← isAtEnd) then
      return none
    else return some (← rules.statement true)
  return test.map Node.code ++ body

def switchStatement : Parse Node := do
  advance
  let subject ← condition rules
  expect .lbrace
  let cases ← repeated do
    if (← isAtWord "case") || (← isAtWord "default") then return some (← switchCase rules)
    else return none
  expect .rbrace
  return .statement (subject ++ cases.flatten)

def catchClause : Parse (List Node) := do
  if ← eatWord "catch" then
    let parameter ←
      if ← eat .lparen then do
        let p ← rules.pattern
        let ascription ← typeAnnotationCode rules
        expect .rparen
        pure (p.code ++ ascription)
      else pure []
    return parameter.map Node.code ++ [.statement (← block rules)]
  else return []

def finallyClause : Parse (List Node) := do
  if ← eatWord "finally" then return [.statement (← block rules)] else return []

def tryStatement : Parse Node := do
  advance
  let body ← block rules
  let handler ← catchClause rules
  let last ← finallyClause rules
  return .statement (.statement body :: handler ++ last)

def withStatement : Parse Node := do
  advance
  let subject ← condition rules
  return .statement (subject ++ [← substatement rules])

def labelledStatement : Parse Node := do
  if ← isAtWord "function" then return .statement [← functionDeclaration rules]
  else return .statement [← substatement rules]

/-- An expression as a statement, or a statement with a label. -/
def expressionStatement : Parse Node := do
  let e ← nested (expression rules)
  if e.shape matches .identifier _ then
    if ← eat .colon then return ← labelledStatement rules
  if ← eatStatementEnd then return ofCode e.code
  let continued ← operations rules ⟨.other, e.code⟩
  require (continued.shape == .operation)
  return ofCode continued.code

/-- A declaration that begins with a word of its own, where that word is no expression. Words that
begin with an escape count too; behind them the name must not be reserved. -/
def contextualDeclaration : Parse (Option Node) := do
  let t ← token
  let next ← tokenAfter
  let sameLine := !next.onNewLine
  if t.isWord "interface" || t.isWord "enum" then
    if sameLine && next.isAnyWord then wordDeclaration rules t.first else return none
  else if t.spells "interface" || t.spells "enum" then
    if (sameLine || t.spells "enum") && next.isReference then wordDeclaration rules t.first
    else return none
  else if t.spells "type" || t.spells "module" then
    if sameLine && (next.isReference || (t.spells "module" && next.isString)) then
      let isType := t.spells "type"
      advance
      if isType then return some (← typeNode (typeAliasRest rules t.first))
      else if next.isString then return some (← ambientModuleRest rules)
      else return some (← namespaceRest rules)
    else return none
  else if t.spells "namespace" then
    if next.isReference then
      advance
      return some (← namespaceRest rules)
    else return none
  else if t.spells "abstract" then
    if sameLine && next.isWord "class" then
      advance
      return some (← classDeclaration rules)
    else if next.isWord "interface" then
      advance
      advance
      return some (← typeNode (interfaceRest rules t.first))
    else return none
  else if t.spells "global" then
    if next.isMark .lbrace then
      advance
      return some (← namespaceBody rules)
    else return none
  else if t.spells "declare" then
    let position ← get
    advance
    match ← ambientDeclaration rules t.first with
    | some node => return some node
    | none => set position; return none
  else return none

def contextualStatement : Parse Node := do
  match ← contextualDeclaration rules with
  | some node => return node
  | none => expressionStatement rules

/-- A statement; `let`, `const` and `using` declare only where `declarations` allows it. -/
def statement (declarations : Bool) : Parse Node :=
    withReader (fun s => { s with expectsColon := false }) do
  let t ← token
  let next ← tokenAfter
  match t.lexeme with
  | .mark .lbrace => return .statement (← block rules)
  | .mark .semicolon => advance; return .statement []
  | .word w false =>
      if w == "const" && next.isWord "enum" then
        advance
        advance
        typeNode (enumRest rules t.first)
      else if w == "break" || w == "continue" then jumpStatement
      else if w == "debugger" then
        advance
        endStatement
        return .statement []
      else if w == "do" then doStatement rules
      else if w == "for" then forStatement rules
      else if w == "function" then functionDeclaration rules
      else if w == "class" then classDeclaration rules
      else if w == "if" then ifStatement rules
      else if w == "return" then returnStatement rules
      else if w == "switch" then switchStatement rules
      else if w == "throw" then throwStatement rules
      else if w == "catch" || w == "finally" then
        let _ ← catchClause rules
        let _ ← finallyClause rules
        return .statement []
      else if w == "try" then tryStatement rules
      else if w == "with" then withStatement rules
      else if w == "while" then whileStatement rules
      else if w == "var" || (w == "const" && declarations) ||
          (w == "let" && declarations && followsLet next) then variableStatement rules
      else if w == "async" && next.isWord "function" && !next.onNewLine then
        advance
        return .value [.code (← function rules true true)]
      else if declarations && ((← startsUsing) ||
          (w == "await" && next.isWord "using" && !next.onNewLine)) then
        let _ ← eatWord "await"
        let code ← usingVariables rules
        endStatement
        return .value (code.map Node.code)
      else if w == "import" then
        require (next.isMark .lparen || next.isMark .dot)
        let e ← nested (expression rules)
        let _ ← eatStatementEnd
        return ofCode e.code
      else contextualStatement rules
  | .word _ true => contextualStatement rules
  | _ => expressionStatement rules

end TypeClosure.Grammar

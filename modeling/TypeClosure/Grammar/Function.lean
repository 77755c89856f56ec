import TypeClosure.Grammar.Type

/-! Binding patterns, and functions and classes, whose code is local. -/

namespace TypeClosure.Grammar

open Syntax

variable (rules : Rules)

/-! ### Expressions and names -/

/-- An expression, perhaps with others behind commas. -/
def expression : Parse Expr := do
  let first ← rules.assignment
  let others ← repeated do
    if ← eat .comma then return some (← rules.assignment) else return none
  if others.isEmpty then return first
  else return ⟨.other, first.code ++ others.flatMap Expr.code⟩

/-- The name of a property of an object or class: a word, a literal, or expressions in brackets. -/
def propertyName : Parse (List LocalCode) := do
  if ← eat .lbracket then
    let key ← nested (expression rules)
    expect .rbracket
    return key.code
  else
    let t ← token
    require (t.isAnyWord || t.isString || t.isNumeric)
    advance
    return []

/-! ### Patterns -/

/-- A pattern with its default value. -/
def bindingElement : Parse (List LocalCode) := do
  let p ← rules.pattern
  let value ← initializer? rules
  return p.code ++ (value.map Expr.code).getD []

/-- Elements of an array or array pattern up to the closing bracket, some left out. -/
def elements (rule : Parse α) : Parse (List α) := do
  let list ← repeated do
    if ← isAt .rbracket then return none
    if ← eat .comma then return some none
    let a ← rule
    if !(← isAt .rbracket) then expect .comma
    return some (some a)
  expect .rbracket
  return list.filterMap id

def propertyPattern : Parse (List LocalCode) := do
  if ← eat .ellipsis then return (← rules.pattern).code
  let isWord ← isAtAnyWord
  let key ← propertyName rules
  if ← eat .colon then return key ++ (← bindingElement rules)
  require isWord
  let value ← initializer? rules
  return (value.map Expr.code).getD []

/-- A name, an array pattern or an object pattern. -/
def pattern : Parse Pattern := do
  if ← eat .lbracket then
    let list ← elements do
      if ← eat .ellipsis then return (← rules.pattern).code else bindingElement rules
    if (← read).ambient then let _ ← eat .question
    return ⟨false, false, list.flatten⟩
  else if ← eat .lbrace then
    let list ← separated (isAt .rbrace) (propertyPattern rules)
    expect .rbrace
    if (← read).ambient then let _ ← eat .question
    return ⟨false, false, list.flatten⟩
  else
    let _ ← boundName
    return ⟨true, false, []⟩

/-! ### Functions -/

/-- Items in braces. The end of the text closes them too. -/
def braced (item : Parse α) : Parse (List α) := do
  expect .lbrace
  let list ← repeated do
    if (← isAt .rbrace) || (← isAtEnd) then return none else return some (← item)
  let _ ← eat .rbrace
  return list

/-- A block of statements. -/
def block : Parse (List Node) := braced (rules.statement true)

/-- Reads inside a function. -/
def inFunction (async generator : Bool) (rule : Parse α) : Parse α :=
  withReader (fun s => { s with async, generator }) rule

/-- Reads outside of the branches of a conditional. -/
def unconditional (rule : Parse α) : Parse α :=
  withReader (fun s => { s with inConditional := false, expectsColon := false }) rule

/-- The body of a function, behind the code of its head. A declaration may leave the body out. -/
def functionBody (scope : LocalScope) (code : List LocalCode) : Parse LocalCode := do
  if ← isAt .lbrace then return .of scope code (← unconditional (nested (block rules)))
  else
    endStatement
    return .of scope code []

/-- The parameters, result and body of a function. -/
def functionRest (scope : LocalScope) (async generator : Bool) : Parse LocalCode :=
  inFunction async generator do
    let generics ← typeParameters rules
    expect .lparen
    let list ← withReader (fun s => { s with expectsColon := false }) (parameters rules)
    let output ← returnAnnotation rules
    functionBody rules scope (list.flatMap Pattern.code ++ generics ++ output)

/-- The body of an arrow function: a block or an expression; tells whether it is a block. -/
def arrowBody (async : Bool) : Parse (Bool × List Node) := inFunction async false do
  if ← isAt .lbrace then return (true, ← block rules)
  else return (false, (← rules.assignment).code.map Node.code)

/-- Whether a name comes next where it may be left out. -/
def isAtOptionalName : Parse Bool :=
  return (← isAtReference) || (← isAtWord "this") || (← isAtWord "let")

/-- A function from its keyword on. -/
def function (async named : Bool) : Parse LocalCode := do
  expectWord "function"
  let generator ← eat .star
  if named || (← isAtOptionalName) then
    let _ ← boundName
  functionRest rules .function async generator

/-! ### Constructors -/

/-- Takes an access modifier in front of a member of a class. -/
def accessModifier? : Parse (Option String) :=
  modifier? ["public", "protected", "private", "in", "out"]

/-- A parameter of a constructor. One with a modifier declares a member, and so is no pattern
without a default value. -/
def constructorParameter : Parse (List LocalCode) := do
  if ← eat .ellipsis then
    let p ← rules.pattern
    return p.code ++ (← typeAnnotationCode rules)
  let access ← accessModifier?
  let overriding ← modifier? ["override"]
  let constant ← modifier? ["readonly"]
  require !(← isAt .ellipsis)
  let p ← parameter rules
  require (p.isIdentifier || p.hasDefault ||
    (access.isNone && overriding.isNone && constant.isNone))
  return p.code

/-- A constructor behind its name. -/
def constructorRest : Parse LocalCode := inFunction false false do
  let generics ← typeParameters rules
  expect .lparen
  let list ← separated (isAt .rparen) (constructorParameter rules)
  expect .rparen
  let ascription ← typeAnnotationCode rules
  functionBody rules .function (list.flatten ++ generics ++ ascription)

/-! ### Members of classes -/

/-- The name of a class member. -/
def classMemberName : Parse (List LocalCode) := do
  if ← isAt .hash then
    privateName
    return []
  else propertyName rules

def namesConstructor (t : Token) : Bool :=
  t.spells "constructor" || t.lexeme == .string (some "constructor")

def startsMethod : Parse Bool := return (← isAt .lparen) || (← isAt .langle)

/-- Whether a property goes on, or ends, behind its name. -/
def startsProperty (mayEnd : Bool) : Parse Bool := do
  if (← isAt .bang) || (← isAt .colon) || (← isAt .equals) || (← isAt .rbrace) ||
      (← isAt .semicolon) then return true
  else return mayEnd && (← mayEndStatement)

def method (async generator : Bool) : Parse (List LocalCode) :=
  return [← functionRest rules .function async generator]

/-- What follows the name of a property. Where its end is missing, the next member begins. -/
def propertyRest (isOptional : Bool) : Parse (List LocalCode) := do
  if !isOptional then let _ ← eat .bang
  let ascription ← typeAnnotationCode rules
  let value ← initializer? rules
  let _ ← eatStatementEnd
  return ascription ++ (value.map Expr.code).getD []

/-- A member from its name on. -/
def namedMember (isReadonly isStatic : Bool) : Parse (List LocalCode) := do
  let t ← token
  let key ←
    if isReadonly && ((← isAt .bang) || (← isAt .colon)) then pure []
    else classMemberName rules
  let isOptional ← eat .question
  if ← startsMethod then
    require !isReadonly
    if namesConstructor t && !isStatic then return key ++ [← constructorRest rules]
    else return key ++ (← method rules false false)
  let isAccessor := (t.spells "get" || t.spells "set") && !(← startsProperty false) &&
    !((← onNewLine) && (← isAt .star))
  if !isAccessor && (← startsProperty true) then
    require !(namesConstructor t)
    return key ++ (← propertyRest rules isOptional)
  if t.spells "async" && !(← onNewLine) then
    let generator ← eat .star
    require (!isReadonly && !namesConstructor (← token))
    let key ← classMemberName rules
    let _ ← eat .question
    return key ++ (← method rules true generator)
  require isAccessor
  let key ← classMemberName rules
  return key ++ (← method rules false false)

/-- A member of a class. Its words in front may turn out to be its name. -/
def classMember : Parse (List LocalCode) := do
  if ← eatWord "declare" then
    if ← startsMethod then return ← method rules false false
    if (← startsProperty true) || (← isAt .question) then
      return ← propertyRest rules (← eat .question)
  let access ← accessModifier?
  let _ ← modifier? ["declare"]
  let isStatic ← eatWord "static"
  if isStatic then
    if ← startsMethod then return ← method rules false false
    if (← startsProperty false) || (← isAt .question) then
      return ← propertyRest rules (← eat .question)
    if ← isAt .lbrace then return [.of .function [] (← block rules)]
  let found ← repeated (modifier? ["abstract", "readonly", "override", "static", "accessor"])
  if access.isNone && !found.contains "abstract" && !found.contains "override" then
    if let some code ← indexSignature? rules then return code
  if ← eat .star then
    let key ← classMemberName rules
    return key ++ (← method rules false true)
  namedMember rules (found.contains "readonly") (isStatic || found.contains "static")

/-! ### Classes -/

/-- What a class extends. -/
def superclass : Parse (List LocalCode) := do
  let base ← rules.applied true
  if ← isAt .langle then return base.code ++ (← typeArguments rules) else return base.code

/-- Types that a class implements. -/
def implemented : Parse (List LocalCode) := do
  let list ← separated (return (← isAt .lbrace) || (← isAtWord "implements") ||
    (← isAtWord "extends")) rules.heritage
  return list.flatMap Prod.snd

/-- What stands behind a word, if that word comes next. -/
def clause (word : String) (rule : Parse (List LocalCode)) : Parse (List LocalCode) := do
  if ← eatWord word then rule else return []

/-- What a class extends and implements. Either may be said once too often. -/
def classHeritage : Parse (List LocalCode) := do
  let bases ← clause "extends" do
    let base ← superclass rules
    if ← eat .comma then return base ++ (← implemented rules) else return base
  let secondBase ← clause "extends" (superclass rules)
  let types ← clause "implements" (implemented rules)
  let moreTypes ← clause "implements" (implemented rules)
  let lateBase ← clause "extends" (superclass rules)
  return bases ++ secondBase ++ types ++ moreTypes ++ lateBase

/-- A class from its keyword on. -/
def classRest (named : Bool) : Parse LocalCode := do
  expectWord "class"
  if named || (← isAtOptionalName) then
    require !(← isAtWord "let")
    let _ ← boundName
  let generics ← typeParameters rules
  let heritage ← classHeritage rules
  expect .lbrace
  let list ← unconditional (repeated do
    if ← isAt .rbrace then return none
    if ← eat .semicolon then return some []
    return some (← classMember rules))
  expect .rbrace
  return .of .classBody (generics ++ heritage ++ list.flatten) []

end TypeClosure.Grammar

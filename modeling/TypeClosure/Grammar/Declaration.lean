import TypeClosure.Grammar.Expression

/-! Declarations of types, variables, functions, classes and namespaces. -/

namespace TypeClosure.Grammar

open Syntax

variable (rules : Rules)

/-! ### Types -/

/-- The rest of an extended or implemented type, behind its first name: its text without type
arguments, and its code. -/
def heritageUpTo : Nat → Cursor → List LocalCode → Parse (String × List LocalCode)
  | 0, _, _ => failure
  | n + 1, first, code => do
      let text ← textFrom first
      if ← isAt .langle then
        let arguments ← typeArguments rules
        if (← isAt .dot) || (← isAt .questionDot) || (← isAt .backquote) then
          heritageUpTo n first (code ++ arguments)
        else return (text, code ++ arguments)
      else
        match ← suffix? rules false false ⟨.other, code⟩ with
        | some e => heritageUpTo n first e.code
        | none => return (text, code)

/-- What an interface extends or a class implements. -/
def heritage : Parse (String × List LocalCode) := do
  let first ← here
  let _ ← name
  heritageUpTo rules (← read).size first []

/-- An interface from its name on; its text starts at `first`. -/
def interfaceRest (first : Cursor) : Parse (TypeDecl × List LocalCode) := do
  let name ← name
  let generics ← typeParameters rules
  let heritage ←
    if ← eatWord "extends" then
      separated (return (← isAt .lbrace) || (← isAtWord "implements") || (← isAtWord "extends"))
        rules.heritage
    else pure []
  if ← isAtWord "extends" then
    let _ ← repeated do
      if (← isAtEnd) || (← isAt .lbrace) then return none
      advance
      return some ()
  let (list, code) ← members rules
  return (⟨name, first.offset, ← textFrom first, .interface (heritage.map Prod.fst) list⟩,
    generics ++ heritage.flatMap Prod.snd ++ code)

/-- A type alias from its name on; its text takes in its semicolon. -/
def typeAliasRest (first : Cursor) : Parse (TypeDecl × List LocalCode) := do
  let name ← name
  let generics ← typeParameters rules
  expect .equals
  let t ← rules.type
  endStatement
  return (⟨name, first.offset, ← textFrom first, .typeAlias⟩, generics ++ t.code)

def enumMemberName : Parse (List LocalCode) := do
  if ← eat .lbracket then
    let e ← expression rules
    expect .rbracket
    return e.code
  else
    let t ← token
    require (t.isAnyWord || t.isString || t.lexeme == .number)
    advance
    return []

/-- The members of an enumeration. Behind a value the comma may be missing; where neither a value
nor a comma follows a name, the next two tokens are gone past in place of the comma. -/
def enumMembersUpTo : Nat → Parse (List LocalCode)
  | 0 => failure
  | n + 1 => do
      if ← isAt .rbrace then return []
      let key ← enumMemberName rules
      if let some value ← initializedBy rules.assignment then
        let _ ← eat .comma
        return key ++ value.code ++ (← enumMembersUpTo n)
      else if ← isAt .rbrace then return key
      else
        if !(← eat .comma) then
          advance
          advance
        return key ++ (← enumMembersUpTo n)

/-- An enumeration from its name on. -/
def enumRest (first : Cursor) : Parse (TypeDecl × List LocalCode) := do
  let name ← name
  expect .lbrace
  let code ← enumMembersUpTo rules (← read).size
  expect .rbrace
  return (⟨name, first.offset, ← textFrom first, .enumeration⟩, code)

/-- A declaration of a type as a node. -/
def typeNode (rest : Parse (TypeDecl × List LocalCode)) : Parse Node := do
  let (decl, code) ← rest
  return .type decl code

/-! ### Namespaces -/

/-- The items of a namespace, in braces. -/
def namespaceBody : Parse Node := return .module (← braced rules.moduleItem)

/-- A namespace from its name on. -/
def namespaceRest : Parse Node := do
  let _ ← name
  let _ ← repeated do
    if ← eat .dot then return some (← name) else return none
  namespaceBody rules

/-- An ambient module or the global scope, whose body may be left out. -/
def ambientModuleRest : Parse Node := do
  let t ← token
  require (t.isString || t.isWord "global")
  advance
  if ← isAt .lbrace then namespaceBody rules
  else
    endStatement
    return .module []

/-! ### Variables -/

/-- Whether a declaration with `let` goes on behind that word. -/
def followsLet (t : Token) : Bool :=
  t.isMark .lbrace || t.isMark .lbracket || t.isReference ||
    moduleReservedWords.any t.isWord || t.isWord "enum"

/-- What the word in front of variables says of them. -/
structure VariableKind where
  isLexical : Bool
  isConstant : Bool
  inLoopHead : Bool

/-- A variable with its type and value. A pattern goes without a value only in the head of a loop,
where it is constant, and where no code runs. -/
def oneVariable (kind : VariableKind) : Parse (List LocalCode) := do
  require !(kind.isLexical && (← isAtWord "let"))
  let p ← rules.pattern
  if p.isIdentifier then let _ ← eat .bang
  let ascription ← typeAnnotationCode rules
  if kind.inLoopHead && ((← isAtWord "in") || (← isAtWord "of")) then return p.code ++ ascription
  if ← eat .equals then
    let value ← rules.assignment
    return p.code ++ ascription ++ value.code
  else
    require (p.isIdentifier || kind.isConstant || (← read).ambient)
    return p.code ++ ascription

def variablesUpTo : Nat → VariableKind → Parse (List LocalCode)
  | 0, _ => failure
  | n + 1, kind => do
      if (← isAt .semicolon) || (← isAtEnd) then return []
      let code ← oneVariable rules kind
      if ← eat .comma then return code ++ (← variablesUpTo n kind) else return code

/-- Whether the head of a loop names no variable: its range comes at once. -/
def startsRange : Parse Bool := lookAhead do
  require ((← isAtWord "of") || (← isAtWord "in"))
  advance
  let _ ← rules.assignment
  isAt .rparen

/-- The variables behind `var`, `let` or `const`. In the head of a loop `in` is no operator behind
`var`. -/
def variableList (inLoopHead : Bool) : Parse (List LocalCode) := do
  let kind : VariableKind := ⟨!(← isAtWord "var"), ← isAtWord "const", inLoopHead⟩
  advance
  if inLoopHead && (← startsRange rules) then return []
  withReader (fun s => { s with allowsIn := s.allowsIn || kind.isLexical || !inLoopHead })
    (variablesUpTo rules (← read).size kind)

/-- A statement of variables. What follows the last one on its line is gone past. -/
def variableStatement : Parse Node := do
  let code ← variableList rules false
  if !(← eatStatementEnd) then
    let _ ← attempt (expression rules)
    let _ ← repeated do
      if ← eatStatementEnd then return none
      advance
      require ((← token).lexeme != .invalid)
      return some ()
  return .value (code.map Node.code)

/-! ### Declarations behind a word -/

/-- A function declaration from its keyword on. -/
def functionDeclaration : Parse Node := return .value [.code (← function rules false true)]

/-- A class declaration from its keyword on. -/
def classDeclaration : Parse Node := return .value [.code (← classRest rules true)]

/-- The declaration that a contextual word begins, from that word on. -/
def wordDeclaration (first : Cursor) : Parse (Option Node) := do
  let t ← token
  if t.spells "abstract" then
    advance
    return some (← classDeclaration rules)
  else if t.spells "enum" then
    advance
    return some (← typeNode (enumRest rules first))
  else if t.spells "interface" then
    advance
    return some (← typeNode (interfaceRest rules first))
  else if t.spells "module" && !t.onNewLine then
    advance
    if (← token).isString then return some (← ambientModuleRest rules)
    else return some (← namespaceRest rules)
  else if t.spells "namespace" then
    advance
    return some (← namespaceRest rules)
  else if t.spells "type" then
    advance
    return some (← typeNode (typeAliasRest rules first))
  else return none

/-- The declaration behind `declare`, whose text starts at `first`. -/
def ambientDeclaration (first : Cursor) : Parse (Option Node) :=
  withReader (fun s => { s with ambient := true }) do
    let t ← token
    if t.isWord "function" then return some (← functionDeclaration rules)
    else if t.isWord "class" then return some (← classDeclaration rules)
    else if t.isWord "const" && (← tokenAfter).isWord "enum" then
      advance
      advance
      return some (← typeNode (enumRest rules first))
    else if t.isWord "const" || t.isWord "var" || t.isWord "let" then
      return some (← variableStatement rules)
    else if t.isWord "global" then return some (← ambientModuleRest rules)
    else wordDeclaration rules first

end TypeClosure.Grammar

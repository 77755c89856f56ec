import TypeClosure.Grammar.Basic

/-!
Types, type parameters and type arguments, the members of interfaces and object types, and the
signatures of functions. Code comes in the order in which a declaration inside it is found.
-/

namespace TypeClosure.Grammar

open Syntax

variable (rules : Rules)

/-! ### Parameters -/

/-- Whether the next token can follow a modifier, which stands on the same line. -/
def followsModifier : Parse Bool := do
  let t ← token
  return !t.onNewLine &&
    (t.isMark .lbracket || t.isMark .lbrace || t.isMark .star || t.isMark .ellipsis ||
      t.isMark .hash || t.isAnyWord || t.isString || t.isNumeric)

/-- Takes one of the words when it stands as a modifier. -/
def modifier? (allowed : List String) : Parse (Option String) := do
  match (← token).lexeme with
  | .word w false =>
      if allowed.contains w && (← lookAhead (do advance; followsModifier)) then
        advance
        return some w
      else return none
  | _ => return none

/-- Goes past an access modifier in front of a parameter. -/
def skipParameterModifier : Parse Unit := do
  let t ← tokenAfter
  if t.isAnyWord || t.isMark .lbrace || t.isMark .lbracket then
    let _ ← modifier? ["public", "protected", "private", "readonly"]

/-- The type behind a colon, if there is one. -/
def typeAnnotation? : Parse (Option TypeSyntax) := do
  if ← eat .colon then return some (← rules.type) else return none

def typeAnnotationCode : Parse (List LocalCode) := do
  return ((← typeAnnotation? rules).map TypeSyntax.code).getD []

/-- The value behind an equals sign, if there is one, by a rule for that value. -/
def initializedBy (value : Parse Expr) : Parse (Option Expr) := do
  if ← eat .equals then return some (← value) else return none

def initializer? : Parse (Option Expr) := initializedBy (nested rules.assignment)

/-- A parameter: a pattern with its type and its default value. -/
def parameter : Parse Pattern := do
  if ← eat .ellipsis then
    let p ← rules.pattern
    let value ← initializedBy rules.assignment
    let ascription ← typeAnnotationCode rules
    let _ ← eat .question
    return ⟨p.isIdentifier, false, p.code ++ ascription ++ (value.map Expr.code).getD []⟩
  else
    skipParameterModifier
    let p ← rules.pattern
    let early ← initializer? rules
    let optional ← eat .question
    require (!optional || early.isNone || (← read).ambient)
    let ascription ← typeAnnotationCode rules
    let late ← initializedBy rules.assignment
    return ⟨p.isIdentifier, early.isSome || late.isSome,
      p.code ++ ascription ++ (early.map Expr.code).getD [] ++ (late.map Expr.code).getD []⟩

/-- Parameters up to the closing parenthesis, which is taken. -/
def parameters : Parse (List Pattern) := do
  let list ← separated (isAt .rparen) (parameter rules)
  expect .rparen
  return list

/-- The parameters of a signature, which have no default values. -/
def signatureParameters : Parse (List LocalCode) := do
  let list ← parameters rules
  require (list.all (!·.hasDefault))
  return list.flatMap Pattern.code

/-! ### Type parameters and arguments -/

/-- A type behind a word or mark that `introduced` takes, if it does. -/
def introducedType (introduced : Parse Bool) : Parse (List LocalCode) := do
  if ← introduced then return (← rules.type).code else return []

def typeParameter : Parse (List LocalCode) := do
  let _ ← repeated (modifier? ["public", "private", "protected", "readonly", "abstract", "const",
    "override", "in", "out"])
  let _ ← name
  let constraint ← introducedType rules (eatWord "extends")
  let default ← introducedType rules (eat .equals)
  return constraint ++ default

/-- Type parameters as in `<A, B extends C = D>`, if there are any. -/
def typeParameters : Parse (List LocalCode) := do
  if ← eat .langle then
    let list ← separated (isAt .rangle) (typeParameter rules)
    expect .rangle
    return list.flatten
  else return []

/-- Type arguments as in `<A, B>`. -/
def typeArguments : Parse (List LocalCode) := do
  expect .langle
  let list ← separated (isAt .rangle) rules.type
  expect .rangle
  return list.flatMap TypeSyntax.code

/-- Type arguments that follow on the same line, if there are any. -/
def typeArgumentsOnLine : Parse (List LocalCode) := do
  if (← isAt .langle) && !(← onNewLine) then typeArguments rules else return []

/-! ### Signatures -/

/-- What a signature returns, behind a colon or an arrow: a type, or a predicate on a parameter. -/
def returnType (introduced : Mark) : Parse (List LocalCode) := do
  expect introduced
  let next ← tokenAfter
  if (← isAtWord "asserts") && (next.isReference || next.isWord "this") then
    advance
    let _ ← name
    if (← isAtWord "is") && !(← onNewLine) then
      advance
      return (← rules.type).code
    else return []
  else if (← isAtReference) && next.isWord "is" && !next.onNewLine then
    advance
    advance
    return (← rules.type).code
  else return (← rules.type).code

/-- The return type behind a colon, if there is one. -/
def returnAnnotation : Parse (List LocalCode) := do
  if ← isAt .colon then returnType rules .colon else return []

/-- The signature of a call, as in `<T>(x: A): B`. -/
def signature : Parse (List LocalCode) := do
  let generics ← typeParameters rules
  expect .lparen
  let inputs ← signatureParameters rules
  let output ← returnAnnotation rules
  return inputs ++ output ++ generics

/-! ### Members -/

/-- Ends a member of an interface or object type. -/
def endMember : Parse Unit := do
  if !(← eat .comma) then endStatement

/-- The name of a member: a word, a private name, an expression in brackets, or a literal, to
which members may be applied. -/
def memberName : Parse (List LocalCode) := do
  if ← isAt .hash then
    privateName
    return []
  else if ← eat .lbracket then
    let key ← rules.assignment
    expect .rbracket
    return key.code
  else
    let t ← token
    if t.isString || t.lexeme == .number then return (← rules.applied false).code
    else
      let _ ← name
      return []

/-- An index signature as in `[key: A]: B`, if there is one. -/
def indexSignature? : Parse (Option (List LocalCode)) := do
  let starts ← lookAhead do
    expect .lbracket
    require (← isAtReference)
    advance
    return (← isAt .colon) || (← isAt .comma)
  if starts then
    advance
    let _ ← name
    advance
    let key ← rules.type
    expect .rbracket
    let value ← typeAnnotationCode rules
    endMember
    return some (key.code ++ value)
  else return none

/-- The signature of an accessor: `get name(): A` or `set name(x: A)`. -/
def accessorSignature : Parse (List LocalCode) := do
  if ← eatWord "get" then
    let key ← memberName rules
    expect .lparen
    expect .rparen
    let ascription ← typeAnnotationCode rules
    endMember
    return key ++ ascription
  else
    expectWord "set"
    let key ← memberName rules
    expect .lparen
    let list ← parameters rules
    require (!list.isEmpty && list.all (!·.hasDefault))
    endMember
    return key ++ ((list.head?.map Pattern.code).getD [])

/-- A property or a method. -/
def propertyOrMethod (isReadonly : Bool) : Parse (Member × List LocalCode) := do
  let key ← memberName rules
  let _ ← eat .question
  if (← isAt .lparen) || (← isAt .langle) then
    require (!isReadonly)
    let code ← signature rules
    endMember
    return (.other, key ++ code)
  else
    let ascription ← typeAnnotation? rules
    endMember
    return (.property (ascription.map TypeSyntax.type),
      key ++ (ascription.map TypeSyntax.code).getD [])

def member : Parse (Member × List LocalCode) := do
  if (← isAt .lparen) || (← isAt .langle) then
    let code ← signature rules
    endMember
    return (.other, code)
  let next ← tokenAfter
  if (← isAtWord "new") && (next.isMark .lparen || next.isMark .langle) then
    advance
    let code ← signature rules
    endMember
    return (.other, code)
  let isReadonly := (← modifier? ["readonly"]).isSome
  if let some code ← indexSignature? rules then
    return (.other, code)
  if !isReadonly then
    if let some code ← attempt (accessorSignature rules) then
      return (.other, code)
  propertyOrMethod rules isReadonly

/-- The members of an interface or object type, in braces. -/
def members : Parse (List Member × List LocalCode) := do
  expect .lbrace
  let list ← repeated do
    if ← isAt .rbrace then return none else return some (← member rules)
  expect .rbrace
  return (list.map Prod.fst, list.flatMap Prod.snd)

/-! ### Types -/

/-- Names with dots between them, those behind a dot read by `selected`; a dot without a name
behind it ends them. -/
def dottedNameOf (selected : Parse String) : Parse Unit := do
  let _ ← name
  let _ ← repeated do
    if ← eat .dot then
      if (← isAtAnyWord) || (← isAt .hash) then return some (← selected) else return none
    else return none

def dottedName : Parse Unit := dottedNameOf name

def ending (first : Cursor) (make : String → TypeExpr) (code : List LocalCode) :
    Parse TypeSyntax :=
  return ⟨make (← textFrom first), code⟩

def reference : Parse TypeSyntax := do
  let first ← here
  skipParameterModifier
  dottedName
  let arguments ← typeArgumentsOnLine rules
  ending first .reference arguments

/-- Attributes behind the module of an imported type, as in `{ with: { .. } }`, if they are there. -/
def importAttributes : Parse (List LocalCode) := do
  if ← eat .lbrace then
    expectWord "with"
    expect .colon
    require (← isAt .lbrace)
    let attributes ← rules.assignment
    let _ ← eat .comma
    expect .rbrace
    return attributes.code
  else return []

/-- An imported type as in `import("m").A<B>`. -/
def importedName : Parse (List LocalCode) := do
  expectWord "import"
  expect .lparen
  require !(← isAtEnd)
  advance
  let attributes ← if ← eat .comma then importAttributes rules else pure []
  expect .rparen
  if ← eat .dot then dottedNameOf boundName
  if ← isAt .langle then return attributes ++ (← typeArguments rules) else return attributes

/-- The type of a value: `typeof a.b<C>` or `typeof import("m")`. -/
def typeQuery : Parse (List LocalCode) := do
  expectWord "typeof"
  if ← isAtWord "import" then
    let imported ← importedName rules
    return imported ++ (← typeArgumentsOnLine rules)
  else
    dottedName
    typeArgumentsOnLine rules

/-- The pieces of a template, from behind its opening quote, with what `inner` reads between
them. Only behind a tag may a piece hold escapes without a value. -/
def templateUpTo : Nat → Bool → Parse (List LocalCode) → Parse (List LocalCode)
  | 0, _, _ => failure
  | n + 1, isTagged, inner => do
      let c := (← get).taken
      match templateText? true c.offset c.rest with
      | none => failure
      | some (isValid, ending, last) =>
          require (isTagged || isValid)
          resume last
          match ending with
          | .close => return []
          | .substitution =>
              let code ← inner
              expect .rbrace
              return code ++ (← templateUpTo n isTagged inner)

def template (isTagged : Bool) (inner : Parse (List LocalCode)) : Parse (List LocalCode) := do
  expect .backquote
  templateUpTo (← read).size isTagged inner

/-- What an element of a tuple asks of its place: an optional one has only optional and rest
elements behind it. -/
inductive TupleElement where
  | required | optional | rest
deriving DecidableEq

def tupleElement : Parse (TupleElement × List LocalCode) := do
  let _ ← attempt do
    let _ ← eat .ellipsis
    let _ ← name
    let _ ← eat .question
    expect .colon
  if ← eat .ellipsis then return (.rest, (← rules.type).code)
  let t ← rules.type
  if ← eat .question then return (.optional, t.code) else return (.required, t.code)

/-- A tuple as in `[a?: A, B?, ...C[]]`. -/
def tuple : Parse (List LocalCode) := do
  expect .lbracket
  let list ← separated (isAt .rbracket) (tupleElement rules)
  expect .rbracket
  require (((list.map Prod.fst).dropWhile (· != .optional)).all (· != .required))
  return list.flatMap Prod.snd

def startsMappedType : Parse Bool := lookAhead do
  expect .lbrace
  if ← eatOneOf [.plus, .minus] then
    isAtWord "readonly"
  else
    let _ ← eatWord "readonly"
    expect .lbracket
    require (← isAtReference)
    advance
    isAtWord "in"

/-- A mapped type as in `{ readonly [K in A as B]?: C }`. -/
def mappedType : Parse (List LocalCode) := do
  expect .lbrace
  if ← eatOneOf [.plus, .minus] then expectWord "readonly"
  else let _ ← eatWord "readonly"
  expect .lbracket
  let _ ← name
  expectWord "in"
  let constraint ← rules.type
  let renamed ← introducedType rules (eatWord "as")
  expect .rbracket
  if ← eatOneOf [.plus, .minus] then expect .question
  else let _ ← eat .question
  let ascription ← typeAnnotationCode rules
  endStatement
  expect .rbrace
  return constraint.code ++ renamed ++ ascription

/-- The words that are types by themselves. -/
def keywordTypes : List String :=
  ["any", "boolean", "bigint", "never", "number", "object", "string", "symbol", "unknown",
   "undefined", "intrinsic", "void", "null"]

/-- Keywords that a reference may begin with. -/
def referenceKeywords : List String := ["void", "null", "break", "enum"]

def predicateOnThis (first : Cursor) : Parse TypeSyntax := do
  expectWord "this"
  if (← isAtWord "is") && !(← onNewLine) then
    advance
    let t ← rules.type
    ending first .other t.code
  else ending first .other []

/-- A type that no operator or bracket has been applied to. -/
def primaryType : Parse TypeSyntax := do
  let first ← here
  let t ← token
  match t.lexeme with
  | .string _ | .number | .bigint => advance; ending first .other []
  | .mark .minus =>
      advance
      require (← token).isNumeric
      advance
      ending first .other []
  | .mark .backquote =>
      let code ← template false (return (← rules.type).code)
      ending first .other code
  | .mark .lbrace =>
      if ← startsMappedType then
        let code ← mappedType rules
        ending first .other code
      else
        let (list, code) ← members rules
        ending first (.object · list) code
  | .mark .lbracket =>
      let code ← tuple rules
      ending first .other code
  | .mark .lparen =>
      advance
      let inner ← rules.type
      expect .rparen
      ending first (.parenthesized · inner.type) inner.code
  | .word w escaped =>
      if t.isWord "true" || t.isWord "false" then
        advance
        ending first .other []
      else if t.isWord "import" then ending first .other (← importedName rules)
      else if t.isWord "typeof" then ending first .other (← typeQuery rules)
      else if t.isWord "this" then predicateOnThis rules first
      else if t.isWord "asserts" && (← tokenAfter).isWord "this" then
        advance
        predicateOnThis rules first
      else if !escaped && keywordTypes.contains w && !(← tokenAfter).isMark .dot then
        advance
        ending first .other []
      else
        require (escaped || referenceKeywords.contains w || !keywords.contains w)
        require !(t.isWord "let")
        reference rules
  | _ => failure

/-- Brackets behind a type, on the same line: `A[]` and `A[B]`. -/
def bracketsUpTo : Nat → Cursor → TypeSyntax → Parse TypeSyntax
  | 0, _, _ => failure
  | n + 1, first, t => do
      if (← onNewLine) || !(← isAt .lbracket) then return t
      advance
      if ← eat .rbracket then
        bracketsUpTo n first ⟨.array (← textFrom first) t.type, t.code⟩
      else
        let index ← rules.type
        expect .rbracket
        bracketsUpTo n first ⟨.other (← textFrom first), t.code ++ index.code⟩

/-- An inferred type `infer A extends B`; the constraint is one only where no conditional type
begins with it. -/
def inferredType : Parse TypeSyntax := do
  let first ← here
  expectWord "infer"
  let _ ← name
  let constraint ← attempt do
    expectWord "extends"
    let t ← rules.boundType
    require (!(← read).conditionalTypes || !(← isAt .question))
    return t.code
  ending first .other (constraint.getD [])

/-- A type with the operators in front of it. -/
def typeOperand : Parse TypeSyntax := do
  let first ← here
  if (← isAtWord "keyof") || (← isAtWord "unique") || (← isAtWord "readonly") then
    advance
    let t ← rules.typeOperand
    ending first .other t.code
  else if ← isAtWord "infer" then inferredType rules
  else
    let t ← primaryType rules
    bracketsUpTo rules (← read).size first t

/-- Types joined by an operator, which may stand in front too. -/
def joined (operator : Mark) (make : String → List TypeExpr → TypeExpr)
    (operand : Parse TypeSyntax) : Parse TypeSyntax := do
  let first ← here
  let _ ← eat operator
  let t ← operand
  if ← isAt operator then
    let others ← repeated do
      if ← eat operator then return some (← operand) else return none
    let all := t :: others
    ending first (make · (all.map TypeSyntax.type)) (all.flatMap TypeSyntax.code)
  else return t

/-- Whether a parenthesis begins the parameters of a function type. -/
def startsFunctionType : Parse Bool := lookAhead do
  expect .lparen
  if (← isAt .rparen) || (← isAt .ellipsis) then return true
  skipParameterModifier
  if (← isAtReference) || (← isAtWord "this") then advance
  else
    require ((← isAt .lbrace) || (← isAt .lbracket))
    let _ ← rules.pattern
  if (← isAt .colon) || (← isAt .comma) || (← isAt .question) || (← isAt .equals) then return true
  return (← eat .rparen) && (← isAt .arrow)

/-- The type of a function or, behind `new`, of a constructor: `<T>(x: A) => B`. -/
def functionType : Parse TypeSyntax := do
  let first ← here
  let _ ← eatWord "abstract"
  let _ ← eatWord "new"
  let generics ← typeParameters rules
  expect .lparen
  let inputs ← signatureParameters rules
  let output ← returnType rules .arrow
  ending first .other (inputs ++ generics ++ output)

/-- A type that is not conditional. -/
def nonConditionalType : Parse TypeSyntax := do
  if (← isAt .langle) || (← startsFunctionType rules) || (← isAtWord "new") ||
      ((← isAtWord "abstract") && (← tokenAfter).isWord "new") then
    functionType rules
  else joined .bar .union (joined .ampersand .intersection (typeOperand rules))

/-- What may stand behind `extends` in a conditional type or in an inferred one. -/
def boundType : Parse TypeSyntax :=
  withReader (fun s => { s with conditionalTypes := false }) (nonConditionalType rules)

/-- A type. -/
def type : Parse TypeSyntax := withReader (fun s => { s with conditionalTypes := true }) do
  let first ← here
  let check ← nonConditionalType rules
  if (← onNewLine) || !(← isAtWord "extends") then return check
  advance
  let bound ← rules.boundType
  expect .question
  let yes ← rules.type
  expect .colon
  let no ← rules.type
  ending first .other (check.code ++ bound.code ++ yes.code ++ no.code)

end TypeClosure.Grammar

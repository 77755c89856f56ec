import TypeClosure.Grammar.Statement

/-! The items of a module: imports, exports and statements. -/

namespace TypeClosure.Grammar

open Syntax

variable (rules : Rules)

/-! ### Sources and names -/

/-- The attributes of an import or export: an object literal on the same line. -/
def attributesCode : Parse (List LocalCode) := do
  if !(← onNewLine) && ((← isAtWord "with") || (← isAtWord "assert")) then
    advance
    return (← nested (objectLiteral rules)).code
  else return []

/-- The value of a string that names a module. -/
def moduleSource : Parse (Option String) := do
  match (← token).lexeme with
  | .string value => advance; return value
  | _ => failure

/-- The clause `from "m"`, to the end of the statement. -/
def sourceClause : Parse (Option String × List LocalCode) := do
  expectWord "from"
  let value ← moduleSource
  let code ← attributesCode rules
  endStatement
  return (value, code)

def exportName : Parse ExportName := do
  match (← token).lexeme with
  | .string value => advance; return .string value
  | _ => return .identifier (← name)

/-- The name behind `as`, if it is there. -/
def newName? : Parse (Option ExportName) := do
  if ← eatWord "as" then return some (← exportName) else return none

/-! ### Imports -/

def importSpecifier : Parse Unit := do
  match ← exportName with
  | .string _ =>
      expectWord "as"
      let _ ← boundName
  | .identifier first =>
      let mut word := first
      if first == "type" && (← isAtAnyWord) then
        word := ← name
        if word == "as" then
          if !(← isAtAnyWord) then return
          let second ← boundName
          if second == "as" && (← isAtAnyWord) then
            let _ ← boundName
          return
      if ← eatWord "as" then
        let _ ← boundName
      else require (!keywords.contains word && !moduleReservedWords.contains word)

/-- What an alias stands for: `= require("m")` or `= A.B`. -/
def importEquals : Parse Node := do
  expect .equals
  if (← isAtWord "require") && (← tokenAfter).isMark .lparen then
    advance
    advance
    let _ ← moduleSource
    expect .rparen
  else dottedNameOf boundName
  endStatement
  return .statement []

/-- The default binding of an import; an import of types or in phases has a word in front. Tells
whether the import goes on with `=`. -/
def importedDefault : Parse Bool := do
  let first ← boundName
  let next ← tokenAfter
  if first == "type" && ((← isAt .lbrace) || (← isAt .star)) then return false
  if first == "type" && (← isAtReference) then
    if !(← isAtWord "from") || next.isWord "from" || next.isMark .equals then
      let _ ← boundName
  else if (first == "source" || first == "defer") then
    if ← isAt .star then
      require (first == "defer")
      return false
    require !(← isAt .lbrace)
    if (← isAtReference) && (!(← isAtWord "from") || next.isWord "from") then
      let _ ← boundName
  if ← isAt .equals then return true
  if !(← isAtWord "from") then expect .comma
  return false

def importDeclaration : Parse Node := do
  expectWord "import"
  if (← token).isString then
    let _ ← moduleSource
    let code ← attributesCode rules
    endStatement
    return .statement (code.map Node.code)
  if ← isAtReference then
    if ← importedDefault then return ← importEquals
  if ← eat .star then
    expectWord "as"
    let _ ← boundName
  else if ← eat .lbrace then
    let _ ← separated (isAt .rbrace) importSpecifier
    expect .rbrace
  let (_, code) ← sourceClause rules
  return .statement (code.map Node.code)

/-! ### Exports -/

/-- An entry of an export list. `type` in front of a name is a marker, unless the names behind it
make it the exported name itself. -/
def exportSpecifier : Parse ExportSpecifier := do
  match ← exportName with
  | .identifier first =>
      if first == "type" && (← isAtAnyWord) then
        let second ← name
        if second == "as" then
          if !(← isAtAnyWord) then return .named (.identifier "as") none
          let third ← name
          if third == "as" then
            if ← isAtAnyWord then
              return .named (.identifier "as") (some (.identifier (← name)))
            else return .named (.identifier "type") (some (.identifier "as"))
          else return .named (.identifier "type") (some (.identifier third))
        else return .named (.identifier second) (← newName?)
      else return .named (.identifier first) (← newName?)
  | quoted => return .named quoted (← newName?)

def exportedList : Parse Node := do
  expect .lbrace
  let list ← separated (isAt .rbrace) exportSpecifier
  expect .rbrace
  if ← isAtWord "from" then
    let (source, _) ← sourceClause rules
    return .reexport list source
  else
    let _ ← eatStatementEnd
    return .exportList list

/-- What stands behind `export default`. -/
def exportedDefault : Parse Node := do
  let t ← token
  let next ← tokenAfter
  if t.isWord "abstract" && next.isWord "class" && !next.onNewLine then
    advance
    return .statement [.code (← classRest rules false)]
  if t.isWord "abstract" && next.isWord "interface" then advance
  if ← isAtWord "interface" then
    let first ← here
    advance
    let (decl, code) ← interfaceRest rules first
    return .exportedDefault decl code
  else if ← isAtWord "class" then return .statement [.code (← classRest rules false)]
  else if t.isWord "async" && next.isWord "function" && !next.onNewLine then
    advance
    return .statement [.code (← function rules true false)]
  else if ← isAtWord "function" then return .statement [.code (← function rules false false)]
  else
    let e ← nested rules.assignment
    endStatement
    return .statement (e.code.map Node.code)

/-- An export of everything, from its star on. -/
def exportedAll : Parse Node := do
  expect .star
  if ← eatWord "as" then
    let _ ← exportName
    let (source, _) ← sourceClause rules
    return .reexport [.whole] source
  else
    let (_, code) ← sourceClause rules
    return .statement (code.map Node.code)

def exportDeclaration : Parse Node := do
  expectWord "export"
  let first ← here
  if ← eatWord "declare" then
    if let some node ← ambientDeclaration rules first then return .exported node
  if ← isAtAnyWord then
    let start ← here
    if let some (some node) ← attempt (wordDeclaration rules start) then return .exported node
  if ← eatWord "import" then
    let next ← tokenAfter
    if (← isAtWord "type") && next.isReference then advance
    let _ ← name
    return ← importEquals
  if ← eat .equals then
    let e ← expression rules
    endStatement
    return .statement (e.code.map Node.code)
  if ← eatWord "as" then
    expectWord "namespace"
    let _ ← boundName
    endStatement
    return .statement []
  if ← eatWord "type" then
    if ← isAt .star then return ← exportedAll rules else return ← exportedList rules
  if ← eatWord "default" then return ← exportedDefault rules
  let t ← token
  let next ← tokenAfter
  if t.isWord "class" then return .exported (← classDeclaration rules)
  else if t.isWord "async" && next.isWord "function" && !next.onNewLine then
    advance
    return .exported (.value [.code (← function rules true true)])
  else if t.isWord "function" then return .exported (← functionDeclaration rules)
  else if t.isWord "const" && next.isWord "enum" then
    advance
    advance
    return .exported (← typeNode (enumRest rules t.first))
  else if t.isWord "var" || t.isWord "const" || (t.isWord "let" && followsLet next) then
    return .exported (← variableStatement rules)
  else if t.isMark .star then exportedAll rules
  else exportedList rules

/-- An item of a module or of a namespace. -/
def moduleItem : Parse Node := do
  let next ← tokenAfter
  if ← isAtWord "export" then exportDeclaration rules
  else if (← isAtWord "import") && !(next.isMark .lparen || next.isMark .dot) then
    importDeclaration rules
  else rules.statement true

/-! ### Files -/

/-- The rules with one more level of nesting. -/
def Rules.next : Rules where
  type := Grammar.type rules
  boundType := Grammar.boundType rules
  typeOperand := Grammar.typeOperand rules
  pattern := Grammar.pattern rules
  assignment := Grammar.assignment rules
  binary := Grammar.binary rules
  unary := Grammar.unary rules
  applied := Grammar.applied rules
  element := Grammar.element rules
  heritage := Grammar.heritage rules
  statement := Grammar.statement rules
  moduleItem := Grammar.moduleItem rules

/-- The rules with `n` levels of nesting. -/
def Rules.upTo : Nat → Rules
  | 0 => Rules.none
  | n + 1 => Rules.next (Rules.upTo n)

/-- All items up to the end of the text. -/
def file : Parse (List Node) := repeated do
  if ← isAtEnd then return none else return some (← rules.moduleItem)

end Grammar

/-- The outline of a text, if it follows the grammar. Each level of nesting takes a character of
the text, at most three of them the same one. -/
def outline? (path : String) (text : List Char) : Option (List Node) :=
  let dialect := Grammar.Dialect.ofPath path
  let surroundings : Grammar.Surroundings :=
    { size := text.length + 2, dialect, ambient := dialect.declarationFile }
  let start : Grammar.Position := ⟨Syntax.Token.firstOf text, Cursor.ofText text⟩
  (Grammar.file (Grammar.Rules.upTo (3 * text.length + 8)) surroundings start).map Prod.fst

end TypeClosure

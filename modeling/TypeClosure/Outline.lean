/-!
The outline of a TypeScript file: its type declarations, its exports, and the code around and
between them, as far as that decides where a declaration belongs. Values, and the types of
values, leave nothing but the code of the functions, classes and accessors that they hold.
-/

namespace TypeClosure

mutual
/-- A type as it is written, with its source text. -/
inductive TypeExpr where
  | reference (text : String)
  | array (text : String) (element : TypeExpr)
  | object (text : String) (members : List Member)
  | union (text : String) (members : List TypeExpr)
  | intersection (text : String) (members : List TypeExpr)
  | parenthesized (text : String) (inner : TypeExpr)
  | other (text : String)

/-- A member of an interface or of an object type. -/
inductive Member where
  | property (type : Option TypeExpr)
  | other
end

/-- The source text of a type. -/
def TypeExpr.text : TypeExpr → String
  | .reference text | .array text _ | .object text _ | .union text _ | .intersection text _
  | .parenthesized text _ | .other text => text

inductive TypeKind where
  | interface
  | typeAlias
  | enumeration
deriving Repr, DecidableEq, Inhabited

/-- The word that introduces a declaration of a kind. -/
def TypeKind.word : TypeKind → String
  | .interface => "interface"
  | .typeAlias => "type"
  | .enumeration => "enum"

/-- What a type declaration says beside its name. `heritage` holds the text of each extended
type without its type arguments. -/
inductive TypeBody where
  | interface (heritage : List String) (members : List Member)
  | typeAlias
  | enumeration

/-- A type declaration: where its text starts, and that text. -/
structure TypeDecl where
  name : String
  offset : Nat
  text : String
  body : TypeBody

def TypeDecl.kind (d : TypeDecl) : TypeKind :=
  match d.body with
  | .interface _ _ => .interface
  | .typeAlias => .typeAlias
  | .enumeration => .enumeration

/-- A name in an export list: an identifier, or a string whose value is missing when it holds a
surrogate without its partner. -/
inductive ExportName where
  | identifier (name : String)
  | string (value : Option String)
deriving Repr, DecidableEq, Inhabited

/-- An entry of an export list. `whole` stands for `* as name`. -/
inductive ExportSpecifier where
  | named (name : ExportName) (newName : Option ExportName)
  | whole
deriving Repr, DecidableEq, Inhabited

/-- The kinds of code whose declarations are its own affair. -/
inductive LocalScope where
  | function
  | arrow
  | classBody
  | accessor
deriving Repr, DecidableEq, Inhabited

mutual
/-- A statement or a part of one. `type`, `value` and `module` are declarations; `value` stands
for variables, functions and classes, `module` for a namespace, an ambient module or the
global scope. -/
inductive Node where
  | type (decl : TypeDecl) (code : List LocalCode)
  | value (parts : List Node)
  | module (items : List Node)
  | statement (parts : List Node)
  | code (code : LocalCode)
  | exported (declaration : Node)
  | exportedDefault (decl : TypeDecl) (code : List LocalCode)
  | exportList (specifiers : List ExportSpecifier)
  | reexport (specifiers : List ExportSpecifier) (source : Option String)

/-- The code of a function, an arrow function, a class or an accessor. -/
inductive LocalCode where
  | mk (scope : LocalScope) (parts : List Node)
end

/-- The declaration of a type that an item of a module is; nothing for another declaration, and no
answer for an item that is no declaration. -/
def Node.declaration? : Node → Option (Option TypeDecl)
  | .type d _ | .exported (.type d _) => some (some d)
  | .value _ | .module _ | .exported _ => some none
  | .statement _ | .code _ | .exportedDefault _ _ | .exportList _ | .reexport _ _ => none

/-- Local code made of code that stands in front, as in parameters, and of a body. -/
def LocalCode.of (scope : LocalScope) (code : List LocalCode) (body : List Node) : LocalCode :=
  .mk scope (code.map Node.code ++ body)

end TypeClosure

import TypeClosure.Closure.Basic
import TypeClosure.Json.Value
import TypeClosure.Listing

/-! Closures and listings as JSON. -/

namespace TypeClosure

open Json

/-- The name of a kind in JSON. -/
def TypeKind.jsonName : TypeKind → String
  | .interface => "interface"
  | .typeAlias => "typeAlias"
  | .enumeration => "enum"

def Reexport.toJson (r : Reexport) : Value :=
  .object [("module", .string r.module), ("names", .strings r.names)]

def ClosureEntry.toJson (e : ClosureEntry) : Value :=
  .object [("name", .string e.name), ("kind", .string e.kind.jsonName), ("line", .number e.line),
    ("exported", .bool e.exported)]

def Closure.jsonMembers (c : Closure) : List (String × Value) :=
  [("file", .string c.file), ("roots", .strings c.roots),
    ("declarations", .array (c.declarations.map ClosureEntry.toJson)),
    ("external", .strings c.external),
    ("reexports", .array (c.reexports.map Reexport.toJson)),
    ("missingRoots", .strings c.missingRoots)]

/-- A member that is left out when it has no elements. -/
def Json.Value.unlessEmpty (name : String) (elements : List Value) : List (String × Value) :=
  if elements.isEmpty then [] else [(name, .array elements)]

mutual
def ClosureTree.jsonMembers : ClosureTree → List (String × Value)
  | .node own unresolved followed =>
      own.jsonMembers ++ Value.unlessEmpty "followed" (ClosureTree.allToJson followed) ++
        Value.unlessEmpty "unresolvedModules" (unresolved.map .string)

def ClosureTree.allToJson : List ClosureTree → List Value
  | [] => []
  | t :: ts => .object t.jsonMembers :: ClosureTree.allToJson ts
end

def ClosureTree.toJson (t : ClosureTree) : Value := .object t.jsonMembers

def ListedDeclaration.toJson (d : ListedDeclaration) : Value :=
  .object [("name", .string d.name), ("kind", .string d.kind.jsonName), ("line", .number d.line),
    ("names", .strings d.mentions)]

def Listing.toJson (l : Listing) : Value :=
  .object [("file", .string l.file),
    ("declarations", .array (l.declarations.map ListedDeclaration.toJson)),
    ("reexports", .array (l.reexports.map Reexport.toJson))]

end TypeClosure

import TypeClosure.Declaration.Markers
import TypeClosure.Declaration.Table
import TypeClosure.Reexport
import TypeClosure.Source

/-!
What a file holds for others: its type declarations, which of them it exports, and the names that
it forwards from relative modules. Declarations in the code of functions, arrow functions and
classes are their own affair; those in accessors are not. Inside namespaces nothing is exported.
-/

namespace TypeClosure

structure Contents where
  table : Table := .empty
  markers : Markers := {}
  reexports : List Reexport := []

namespace Contents

/-- Adds a declaration of a text. -/
def declare (text : List Char) (c : Contents) (d : TypeDecl) : Contents :=
  { c with table := c.table.insert ⟨d, Text.lineAt text d.offset⟩ }

/-- Marks a name as exported, where exports are those of the file. -/
def mark (depth : Nat) (c : Contents) (name : String) : Contents :=
  if depth = 0 then { c with markers := c.markers.markExported name } else c

/-- Marks the identifiers of an export list by the names that they have in the file. -/
def markList (depth : Nat) (c : Contents) (specifiers : List ExportSpecifier) : Contents :=
  specifiers.foldl (fun c s =>
    match s with
    | .named (.identifier name) _ => c.mark depth name
    | .named (.string _) _ | .whole => c) c

/-- Adds a statement that forwards names, where exports are those of the file. -/
def forward (depth : Nat) (c : Contents) (specifiers : List ExportSpecifier)
    (source : Option String) : Contents :=
  match source with
  | some module =>
      if depth = 0 ∧ isRelative module then
        { c with reexports := c.reexports ++ [⟨module, bindings specifiers⟩] }
      else c
  | none => c

end Contents

mutual
/-- Adds what a statement holds, `depth` namespaces deep. -/
def Node.addTo (text : List Char) (depth : Nat) (c : Contents) : Node → Contents
  | .type d _ => c.declare text d
  | .value parts | .statement parts => Node.addAllTo text depth c parts
  | .module items => Node.addAllTo text (depth + 1) c items
  | .code code => code.addTo text depth c
  | .exported n => n.addTo text depth (n.markTo depth c)
  | .exportedDefault d _ => (c.mark depth d.name).declare text d
  | .exportList specifiers => c.markList depth specifiers
  | .reexport specifiers source => c.forward depth specifiers source

/-- Marks a declaration of a type that stands behind `export`. -/
def Node.markTo (depth : Nat) (c : Contents) : Node → Contents
  | .type d _ => c.mark depth d.name
  | _ => c

/-- Adds what an accessor holds. -/
def LocalCode.addTo (text : List Char) (depth : Nat) (c : Contents) : LocalCode → Contents
  | .mk .accessor parts => Node.addAllTo text depth c parts
  | .mk .function _ | .mk .arrow _ | .mk .classBody _ => c

def Node.addAllTo (text : List Char) (depth : Nat) (c : Contents) : List Node → Contents
  | [] => c
  | n :: ns => Node.addAllTo text depth (n.addTo text depth c) ns
end

/-- The contents of a file. -/
def Source.contents (s : Source) : Contents := Node.addAllTo s.text 0 {} s.items

namespace Contents

/-- The names of the exported declarations in the order of the text, each once. -/
def exportedNames (c : Contents) : List String :=
  c.table.toList.foldl
    (fun names e => if c.markers.isExported e.name && !names.contains e.name then
      names ++ [e.name] else names) []

/-- The position of the first statement that forwards a name. -/
def reexportOf? (c : Contents) (name : String) : Option Nat :=
  c.reexports.findIdx? (·.names.contains name)

end Contents

end TypeClosure

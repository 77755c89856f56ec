import TypeClosure.Contents
import TypeClosure.Declaration.References

/-! The mentions of every declaration of a file, each looked at by itself. -/

namespace TypeClosure

/-- A declaration with its mentions, its own name twice in front. -/
structure ListedDeclaration where
  name : String
  kind : TypeKind
  line : Nat
  mentions : List String
deriving Repr, DecidableEq

structure Listing where
  file : String
  declarations : List ListedDeclaration
  reexports : List Reexport
deriving Repr, DecidableEq

def TableEntry.listed (e : TableEntry) : ListedDeclaration :=
  ⟨e.name, e.kind, e.line, e.decl.mentions false⟩

/-- The listing of a file. -/
def Source.listing (s : Source) : Listing :=
  let c := s.contents
  ⟨s.path, c.table.toList.map TableEntry.listed, c.reexports⟩

end TypeClosure

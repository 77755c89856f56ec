import TypeClosure.Declaration.Table
import TypeClosure.Reexport

/-! Closures: the declarations of a file that some names depend on, and, where forwarded names are
followed, those of other files. -/

namespace TypeClosure

structure ClosureEntry where
  name : String
  kind : TypeKind
  line : Nat
  exported : Bool
deriving Repr, DecidableEq

/-- What some roots need of a file. -/
structure Closure where
  file : String
  roots : List String
  /-- In the order of the text. -/
  declarations : List ClosureEntry := []
  /-- Names that are declared elsewhere, in the order of their discovery. -/
  external : List String := []
  /-- Statements that forward needed names, each with these names only. -/
  reexports : List Reexport := []
  /-- Roots that are neither declared nor forwarded. -/
  missingRoots : List String := []
deriving Repr, DecidableEq

def Closure.declarationNames (c : Closure) : List String := c.declarations.map ClosureEntry.name

/-- A closure with the modules that could not be found and the closures of those that were
followed. -/
inductive ClosureTree where
  | node (own : Closure) (unresolved : List String) (followed : List ClosureTree)

namespace ClosureTree

def own : ClosureTree → Closure
  | .node own _ _ => own

def unresolved : ClosureTree → List String
  | .node _ unresolved _ => unresolved

def followed : ClosureTree → List ClosureTree
  | .node _ _ followed => followed

mutual
/-- The closures of a tree, each before those that were followed from it. -/
def closures : ClosureTree → List Closure
  | .node own _ followed => own :: closuresOfAll followed

def closuresOfAll : List ClosureTree → List Closure
  | [] => []
  | t :: ts => t.closures ++ closuresOfAll ts
end

/-- The missing roots of all closures of a tree. -/
def missingRoots (t : ClosureTree) : List String := t.closures.flatMap Closure.missingRoots

def hasMissingRoots (t : ClosureTree) : Bool := !t.missingRoots.isEmpty

end ClosureTree

end TypeClosure

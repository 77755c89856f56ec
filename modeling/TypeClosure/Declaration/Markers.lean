/-! Marks that are put on declarations by their names. -/

namespace TypeClosure

/-- The names of the declarations that have been visited, and of those that are exported. -/
structure Markers where
  visited : List String := []
  exported : List String := []
deriving Repr, DecidableEq, Inhabited

namespace Markers

def isVisited (m : Markers) (name : String) : Bool := m.visited.contains name

def isExported (m : Markers) (name : String) : Bool := m.exported.contains name

def markVisited (m : Markers) (name : String) : Markers :=
  if m.isVisited name then m else { m with visited := name :: m.visited }

def markExported (m : Markers) (name : String) : Markers :=
  if m.isExported name then m else { m with exported := name :: m.exported }

theorem isVisited_markVisited (m : Markers) (name other : String) :
    (m.markVisited name).isVisited other = true ↔ other = name ∨ m.isVisited other = true := by
  unfold markVisited
  split <;> simp_all [isVisited]

@[simp] theorem isExported_markVisited (m : Markers) (name other : String) :
    (m.markVisited name).isExported other = m.isExported other := by
  unfold markVisited
  split <;> rfl

theorem isExported_markExported (m : Markers) (name other : String) :
    (m.markExported name).isExported other = true ↔
      other = name ∨ m.isExported other = true := by
  unfold markExported
  split <;> simp_all [isExported]

@[simp] theorem isVisited_markExported (m : Markers) (name other : String) :
    (m.markExported name).isVisited other = m.isVisited other := by
  unfold markExported
  split <;> rfl

end Markers

end TypeClosure

import TypeClosure.Closure.Build
import TypeClosure.Listing

/-! Which names of a file the references of its declarations lead to, and what each of them is to
the file. Both are said without the worklist: references are those of the file's listing. -/

namespace TypeClosure

namespace Source

variable (s : Source) (externals : List Glob.Pattern) (roots : List String)

/-- A declaration of the first name mentions the second one. -/
def Refers (name other : String) : Prop :=
  ∃ d ∈ s.listing.declarations, d.name = name ∧ other ∈ d.mentions.tail

/-- The references of all declarations of a name, in the order of the text. -/
def references (name : String) : List String :=
  (s.listing.declarations.filter (·.name = name)).flatMap (·.mentions.tail)

def Declares (name : String) : Prop := ∃ d ∈ s.listing.declarations, d.name = name

/-- The names that references lead to from the roots. A name that matches an external pattern is
reached, but leads no further. -/
inductive Reachable : String → Prop
  | root {name : String} : name ∈ roots → Reachable name
  | reference {name other : String} :
      Reachable name → isExternal externals name = false → s.Refers name other → Reachable other

variable {s externals roots}

theorem refers_iff {name other : String} :
    s.Refers name other ↔
      ∃ e ∈ s.contents.table.toList, e.name = name ∧ other ∈ e.decl.references := by
  constructor
  · rintro ⟨d, member, same, mentioned⟩
    obtain ⟨e, found, rfl⟩ := List.mem_map.mp member
    exact ⟨e, found, same, mentioned⟩
  · rintro ⟨e, found, same, mentioned⟩
    exact ⟨e.listed, List.mem_map_of_mem found, same, mentioned⟩

theorem mem_references {name other : String} :
    other ∈ s.references name ↔ s.Refers name other := by
  simp [references, Refers, and_assoc]

theorem references_eq (name : String) :
    s.references name =
      (s.contents.table.toList.filter (·.name = name)).flatMap (·.decl.references) := by
  rw [references, listing, List.filter_map, List.flatMap_map]
  rfl

theorem declares_iff {name : String} :
    s.Declares name ↔ ∃ e ∈ s.contents.table.toList, e.name = name := by
  constructor
  · rintro ⟨d, member, same⟩
    obtain ⟨e, found, rfl⟩ := List.mem_map.mp member
    exact ⟨e, found, same⟩
  · rintro ⟨e, found, same⟩
    exact ⟨e.listed, List.mem_map_of_mem found, same⟩

theorem Refers.declares {name other : String} (refers : s.Refers name other) :
    s.Declares name := by
  obtain ⟨d, member, same, _⟩ := refers
  exact ⟨d, member, same⟩

theorem declares_iff_positions {name : String} :
    s.Declares name ↔ s.contents.table.positions name ≠ [] := by
  rw [declares_iff, Ne, Table.positions_eq_nil]
  simp

theorem Reachable.mono {others : List String}
    (covered : ∀ name ∈ roots, s.Reachable externals others name) {name : String}
    (reachable : s.Reachable externals roots name) : s.Reachable externals others name := by
  induction reachable with
  | root member => exact covered _ member
  | reference _ looked refers ih => exact .reference ih looked refers

theorem reachable_congr_roots {others : List String}
    (same : ∀ name, name ∈ roots ↔ name ∈ others) {name : String} :
    s.Reachable externals roots name ↔ s.Reachable externals others name :=
  ⟨Reachable.mono fun _ member => .root ((same _).mp member),
    Reachable.mono fun _ member => .root ((same _).mpr member)⟩

end Source

/-- What a name is to a file whose roots are `roots`. -/
inductive Standing where
  | external
  | declared
  /-- Forwarded by the statement with this position. -/
  | forwarded (position : Nat)
  | missing
deriving Repr, DecidableEq

/-- An external pattern comes before a declaration, and a declaration before a statement that
forwards the name. What is left is missing if it is a root. -/
def Contents.standing (c : Contents) (externals : List Glob.Pattern) (roots : List String)
    (name : String) : Standing :=
  if isExternal externals name then .external
  else if !(c.table.positions name).isEmpty then .declared
  else match c.reexportOf? name with
    | some position => .forwarded position
    | none => if roots.contains name then .missing else .external

theorem Contents.getElem?_of_reexportOf? {c : Contents} {name : String} {position : Nat}
    (found : c.reexportOf? name = some position) : ∃ r, c.reexports[position]? = some r := by
  obtain ⟨bound, _⟩ := List.findIdx?_eq_some_iff_getElem.mp found
  exact ⟨_, List.getElem?_eq_getElem bound⟩

theorem Contents.mem_names_of_reexportOf? {c : Contents} {name : String} {position : Nat}
    {r : Reexport} (found : c.reexportOf? name = some position)
    (stated : c.reexports[position]? = some r) : name ∈ r.names := by
  obtain ⟨bound, named, _⟩ := List.findIdx?_eq_some_iff_getElem.mp found
  rw [List.getElem?_eq_getElem bound] at stated
  cases stated
  exact List.contains_iff_mem.mp named

theorem Contents.standing_congr_roots {c : Contents} {externals : List Glob.Pattern}
    {roots others : List String} (same : ∀ name, name ∈ roots ↔ name ∈ others) (name : String) :
    c.standing externals roots name = c.standing externals others name := by
  have root : roots.contains name = others.contains name := by
    rw [Bool.eq_iff_iff, List.contains_iff_mem, List.contains_iff_mem]
    exact same name
  simp only [standing, root]

namespace Source

variable {s : Source} {externals : List Glob.Pattern} {roots : List String} {name : String}

theorem standing_of_isExternal (external : isExternal externals name = true) :
    s.contents.standing externals roots name = .external := by
  simp [Contents.standing, external]

theorem standing_of_declares (looked : isExternal externals name = false)
    (declared : s.Declares name) :
    s.contents.standing externals roots name = .declared := by
  simp [Contents.standing, looked, declares_iff_positions.mp declared]

/-- A name that is looked up and not declared is forwarded by the first statement that has it. -/
theorem standing_of_not_declares (looked : isExternal externals name = false)
    (undeclared : ¬ s.Declares name) :
    s.contents.standing externals roots name =
      match s.contents.reexportOf? name with
      | some position => .forwarded position
      | none => if name ∈ roots then .missing else .external := by
  rw [declares_iff_positions, Classical.not_not] at undeclared
  simp [Contents.standing, looked, undeclared]

theorem standing_eq_declared :
    s.contents.standing externals roots name = .declared ↔
      isExternal externals name = false ∧ s.Declares name := by
  cases external : isExternal externals name with
  | true => simp [standing_of_isExternal external]
  | false =>
      by_cases declared : s.Declares name
      · simp [standing_of_declares external declared, declared]
      · rw [standing_of_not_declares external declared]
        split
        · simp [declared]
        · split <;> simp [declared]

theorem standing_eq_forwarded {position : Nat} :
    s.contents.standing externals roots name = .forwarded position ↔
      isExternal externals name = false ∧ ¬ s.Declares name ∧
        s.contents.reexportOf? name = some position := by
  cases external : isExternal externals name with
  | true => simp [standing_of_isExternal external]
  | false =>
      by_cases declared : s.Declares name
      · simp [standing_of_declares external declared, declared]
      · rw [standing_of_not_declares external declared]
        cases s.contents.reexportOf? name with
        | some other => simp [declared]
        | none => by_cases member : name ∈ roots <;> simp [member]

theorem standing_eq_external :
    s.contents.standing externals roots name = .external ↔
      isExternal externals name = true ∨
        ¬ s.Declares name ∧ s.contents.reexportOf? name = none ∧ name ∉ roots := by
  cases external : isExternal externals name with
  | true => simp [standing_of_isExternal external]
  | false =>
      by_cases declared : s.Declares name
      · simp [standing_of_declares external declared, declared]
      · rw [standing_of_not_declares external declared]
        cases s.contents.reexportOf? name with
        | some position => simp
        | none => by_cases member : name ∈ roots <;> simp [member, declared]

theorem standing_eq_missing :
    s.contents.standing externals roots name = .missing ↔
      isExternal externals name = false ∧ ¬ s.Declares name ∧
        s.contents.reexportOf? name = none ∧ name ∈ roots := by
  cases external : isExternal externals name with
  | true => simp [standing_of_isExternal external]
  | false =>
      by_cases declared : s.Declares name
      · simp [standing_of_declares external declared, declared]
      · rw [standing_of_not_declares external declared]
        cases s.contents.reexportOf? name with
        | some other => simp
        | none => by_cases member : name ∈ roots <;> simp [member, declared]

end Source

end TypeClosure

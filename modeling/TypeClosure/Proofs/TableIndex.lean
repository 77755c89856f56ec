import Mathlib.Data.List.Induction
import TypeClosure.Declaration.Table

/-!
The index of a table. A declaration that is added goes to the end, and its position to the end of
the positions of its name. So the index of a table stays exact, however declarations of one name
stand between others.
-/

namespace TypeClosure

namespace Table

variable {t : Table} {entries : List TableEntry}

theorem positions_insert (t : Table) (e : TableEntry) (name : String) :
    (t.insert e).positions name =
      t.positions name ++ if e.name = name then [t.size] else [] :=
  lookup_addPosition t.index e.name name t.entries.size

theorem get?_insert (t : Table) (e : TableEntry) (position : Nat) :
    (t.insert e).get? position = if position = t.size then some e else t.get? position :=
  Array.getElem?_push

/-- A table holds some declarations in their order, and its index says exactly where those of each
name stand. -/
structure Indexes (t : Table) (entries : List TableEntry) : Prop where
  size_eq : t.size = entries.length
  get?_eq : ∀ position, t.get? position = entries[position]?
  increasing : ∀ name, (t.positions name).Pairwise (· < ·)
  found : ∀ name, (t.positions name).map t.get? = (entries.filter (·.name = name)).map some
  mem_iff : ∀ name position,
    position ∈ t.positions name ↔ ∃ e, t.get? position = some e ∧ e.name = name

theorem indexes_empty : empty.Indexes [] where
  size_eq := rfl
  get?_eq _ := rfl
  increasing _ := .nil
  found _ := rfl
  mem_iff _ _ := by simp [empty, positions, get?]

theorem Indexes.lt_size (exact : t.Indexes entries) {name : String} {position : Nat}
    (member : position ∈ t.positions name) : position < t.size := by
  obtain ⟨e, here, -⟩ := (exact.mem_iff name position).mp member
  rw [exact.get?_eq] at here
  rw [exact.size_eq]
  exact (List.getElem?_eq_some_iff.mp here).1

/-- Adding a declaration keeps the index exact: what was there stays, and the new position is greater
than all others. -/
theorem Indexes.insert (exact : t.Indexes entries) (e : TableEntry) :
    (t.insert e).Indexes (entries ++ [e]) where
  size_eq := by
    have size : (t.insert e).size = t.size + 1 := Array.size_push e
    rw [size, exact.size_eq, List.length_append, List.length_singleton]
  get?_eq position := by
    rw [get?_insert, exact.get?_eq, exact.size_eq, List.getElem?_append]
    grind
  increasing name := by
    rw [positions_insert, List.pairwise_append]
    refine ⟨exact.increasing name, by split <;> simp, ?_⟩
    intro position member last isLast
    have less := exact.lt_size member
    split at isLast
    · rw [List.mem_singleton.mp isLast]
      exact less
    · contradiction
  found name := by
    have before : (t.positions name).map (t.insert e).get? = (t.positions name).map t.get? := by
      refine List.map_congr_left fun position member => ?_
      rw [get?_insert, if_neg (Nat.ne_of_lt (exact.lt_size member))]
    rw [positions_insert, List.map_append, before, exact.found, List.filter_append, List.map_append]
    by_cases same : e.name = name
    · simp [same, get?_insert]
    · simp [same]
  mem_iff name position := by
    rw [positions_insert, List.mem_append, exact.mem_iff, get?_insert]
    by_cases last : position = t.size
    · have fresh : t.get? t.size = none := by
        rw [exact.get?_eq, exact.size_eq, List.getElem?_eq_none (Nat.le_refl _)]
      by_cases same : e.name = name
      · simp [last, same]
      · simp [last, same, fresh]
    · have other : position ∉ if e.name = name then [t.size] else [] := by
        split <;> simp [last]
      simp [last, other]

theorem indexes_foldl_insert (entries : List TableEntry) :
    (entries.foldl insert empty).Indexes entries := by
  induction entries using List.reverseRecOn with
  | nil => exact indexes_empty
  | append_singleton before e ih =>
      rw [List.foldl_append]
      exact ih.insert e

end Table

/-- However declarations are added to the empty table one after the other, the positions of a name
are those of the declarations with that name and no others, in increasing order. There are none for
a name that was never added. Each declaration stays at the position at which it was added, nothing
else is in the table, and at the positions of a name all its declarations are found, in the order in
which they were added. -/
theorem index_exact (entries : List TableEntry) (name : String) :
    let t := entries.foldl Table.insert .empty
    (t.positions name).Pairwise (· < ·) ∧
    (∀ position, position ∈ t.positions name ↔ ∃ e, t.get? position = some e ∧ e.name = name) ∧
    (t.positions name = [] ↔ ∀ e ∈ entries, e.name ≠ name) ∧
    (∀ before e after, entries = before ++ e :: after → t.get? before.length = some e) ∧
    (∀ position, entries.length ≤ position → t.get? position = none) ∧
    (∀ position ∈ t.positions name, (t.get? position).isSome) ∧
    (t.positions name).map t.get? = (entries.filter (·.name = name)).map some := by
  intro t
  have exact : t.Indexes entries := Table.indexes_foldl_insert entries
  refine ⟨exact.increasing name, exact.mem_iff name, ?_, ?_, ?_, ?_, exact.found name⟩
  · rw [← List.map_eq_nil_iff (f := t.get?), exact.found, List.map_eq_nil_iff,
      List.filter_eq_nil_iff]
    simp
  · rintro before e after rfl
    rw [exact.get?_eq, List.getElem?_append_right (Nat.le_refl _), Nat.sub_self,
      List.getElem?_cons_zero]
  · intro position beyond
    rw [exact.get?_eq, List.getElem?_eq_none beyond]
  · intro position member
    obtain ⟨e, here, -⟩ := (exact.mem_iff name position).mp member
    rw [here, Option.isSome_some]

/-- Two interfaces of one name with an enumeration between them. -/
def mergedEntries : List TableEntry :=
  [⟨⟨"A", 0, "interface A {}", .interface [] []⟩, 1⟩, ⟨⟨"B", 15, "enum B {}", .enumeration⟩, 2⟩,
    ⟨⟨"A", 25, "interface A { b: B }", .interface [] [.property (some (.reference "B"))]⟩, 3⟩]

theorem index_exact_merged :
    let t := mergedEntries.foldl Table.insert .empty
    t.positions "A" = [0, 2] ∧ t.positions "C" = [] ∧
      (t.get? 2).map TableEntry.line = some 3 ∧ (t.get? 3).isNone ∧ (t.get? 0).isSome := by
  intro t
  obtain ⟨_, _, _, kept, beyond, present, _⟩ := index_exact mergedEntries "A"
  obtain ⟨_, _, absent, _⟩ := index_exact mergedEntries "C"
  have last := kept (mergedEntries.take 2) _ [] rfl
  refine ⟨by decide, absent.mpr (by decide), congrArg (Option.map TableEntry.line) last, ?_,
    present 0 (by decide)⟩
  rw [beyond 3 (by decide), Option.isNone_none]

end TypeClosure

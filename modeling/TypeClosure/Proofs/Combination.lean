import Mathlib.Data.List.Sort
import TypeClosure.Proofs.Restriction

/-! The closure of two requests together, by the closures of each. -/

namespace TypeClosure

/-- The declarations at positions that stand in order are what is kept of the table for them. -/
theorem filterMap_get?_eq_kept {t : Table} {keep : Nat → Bool} {positions : List Nat}
    (sorted : positions.Pairwise (· < ·))
    (found : ∀ position ∈ positions, ∃ e, t.get? position = some e)
    (same : ∀ position, keep position = true ↔ position ∈ positions) :
    positions.filterMap t.get? = kept keep t.toList := by
  have sorted' : ((t.toList.zipIdx.filter (keep ·.2)).map Prod.snd).Pairwise (· < ·) := by
    have all : (t.toList.zipIdx.map Prod.snd).Pairwise (· < ·) := by
      rw [List.zipIdx_map_snd]
      exact List.pairwise_lt_range'
    exact all.sublist (List.filter_sublist.map _)
  have eq : positions = (t.toList.zipIdx.filter (keep ·.2)).map Prod.snd := by
    apply sorted.eq_of_mem_iff sorted'
    intro position
    rw [List.mem_map, ← same]
    constructor
    · intro kept
      obtain ⟨e, here⟩ := found position ((same position).mp kept)
      rw [Table.get?_eq] at here
      exact ⟨(e, position), by simp [List.mk_mem_zipIdx_iff_getElem?, here, kept], rfl⟩
    · intro inside
      obtain ⟨place, member, rfl⟩ := inside
      exact (List.mem_filter.mp member).2
  have located : ∀ place ∈ t.toList.zipIdx.filter (keep ·.2), t.get? place.2 = some place.1 := by
    intro (e, position) member
    rw [Table.get?_eq]
    exact List.mk_mem_zipIdx_iff_getElem?.mp (List.mem_filter.mp member).1
  rw [eq, List.filterMap_map, kept, ← List.filterMap_eq_map]
  exact List.filterMap_congr located

namespace Source

variable {s : Source} {externals : List Glob.Pattern} {requested first second : List String}
  {name : String}

/-- A closure lists what it lists in the order of the text, and each declaration once. -/
theorem declarations_eq_kept :
    (s.closure externals requested).declarations =
      (kept (fun position => s.Lists (s.closure externals requested) position)
        s.contents.table.toList).map (Contents.entry s.contents.markers) := by
  rw [declarations_closure]
  apply congrArg
  apply filterMap_get?_eq_kept worklist_faithful.sorted
  · intro position member
    obtain ⟨e, found, _⟩ := mem_included_worklist.mp member
    exact ⟨e, found⟩
  · intro position
    rw [decide_eq_true_iff]
    exact lists_iff_mem_included

/-- A closure takes a name from the statement with some position: the first one that forwards it. -/
def Takes (s : Source) (c : Closure) (position : Nat) (name : String) : Prop :=
  s.contents.reexportOf? name = some position ∧
    ∃ statement ∈ s.contents.reexports[position]?,
      ∃ r ∈ c.reexports, name ∈ r.names ∧ r = statement.restrictTo r.names

theorem takes_closure_iff {position : Nat} :
    s.Takes (s.closure externals requested) position name ↔
      s.Reachable externals (s.contents.rootsFor requested) name ∧
        s.contents.standing externals (s.contents.rootsFor requested) name =
          .forwarded position := by
  constructor
  · intro taken
    obtain ⟨found, _, _, r, member, named, _⟩ := taken
    obtain ⟨other, statement, _, _, rfl⟩ := mem_reexports_closure.mp member
    rw [Reexport.names_restrictTo, mem_namesForwardedBy] at named
    cases Option.some.inj (found.symm.trans (standing_eq_forwarded.mp named.2).2.2)
    exact named
  · intro taken
    obtain ⟨statement, stated, needed⟩ := exists_mem_reexports_closure taken.1 taken.2
    exact ⟨(standing_eq_forwarded.mp taken.2).2.2, statement, stated, needed⟩

theorem reachable_append :
    s.Reachable externals (first ++ second) name ↔
      s.Reachable externals first name ∨ s.Reachable externals second name := by
  constructor
  · intro reachable
    induction reachable with
    | root member =>
        cases List.mem_append.mp member with
        | inl here => exact .inl (.root here)
        | inr there => exact .inr (.root there)
    | reference _ allowed refers ih =>
        cases ih with
        | inl here => exact .inl (.reference here allowed refers)
        | inr there => exact .inr (.reference there allowed refers)
  · intro either
    cases either with
    | inl here => exact here.mono fun _ member => .root (List.mem_append_left _ member)
    | inr there => exact there.mono fun _ member => .root (List.mem_append_right _ member)

theorem reachable_rootsFor (nonempty : requested ≠ []) :
    s.Reachable externals (s.contents.rootsFor requested) name ↔
      s.Reachable externals requested name :=
  reachable_congr_roots fun _ => mem_rootsFor_of_ne_nil nonempty

/-- A root is missing if it is found nowhere. -/
theorem mem_missingRoots_iff :
    name ∈ (s.closure externals requested).missingRoots ↔
      name ∈ s.contents.rootsFor requested ∧ isExternal externals name = false ∧
        ¬ s.Declares name ∧ s.contents.reexportOf? name = none := by
  rw [mem_missingRoots_closure, standing_eq_missing]
  constructor
  · intro missing
    obtain ⟨_, allowed, undeclared, unforwarded, root⟩ := missing
    exact ⟨root, allowed, undeclared, unforwarded⟩
  · intro missing
    obtain ⟨root, allowed, undeclared, unforwarded⟩ := missing
    exact ⟨.root root, allowed, undeclared, unforwarded, root⟩

section Requests

variable (some : first ≠ []) (some' : second ≠ [])

include some some'

theorem reachable_rootsFor_append :
    s.Reachable externals (s.contents.rootsFor (first ++ second)) name ↔
      s.Reachable externals (s.contents.rootsFor first) name ∨
        s.Reachable externals (s.contents.rootsFor second) name := by
  rw [reachable_rootsFor (List.append_ne_nil_of_left_ne_nil some second), reachable_append,
    reachable_rootsFor some, reachable_rootsFor some']

theorem mem_rootsFor_append :
    name ∈ s.contents.rootsFor (first ++ second) ↔
      name ∈ s.contents.rootsFor first ∨ name ∈ s.contents.rootsFor second := by
  rw [mem_rootsFor_of_ne_nil (List.append_ne_nil_of_left_ne_nil some second), List.mem_append,
    mem_rootsFor_of_ne_nil some, mem_rootsFor_of_ne_nil some']

theorem lists_closure_append {position : Nat} :
    s.Lists (s.closure externals (first ++ second)) position ↔
      s.Lists (s.closure externals first) position ∨
        s.Lists (s.closure externals second) position := by
  simp only [lists_iff_mem_included, mem_included_worklist, reachable_rootsFor_append some some',
    or_and_right, and_or_left, exists_or]

theorem takes_closure_append {position : Nat} :
    s.Takes (s.closure externals (first ++ second)) position name ↔
      s.Takes (s.closure externals first) position name ∨
        s.Takes (s.closure externals second) position name := by
  simp only [takes_closure_iff, standing_eq_forwarded, reachable_rootsFor_append some some',
    or_and_right]

theorem mem_missingRoots_append :
    name ∈ (s.closure externals (first ++ second)).missingRoots ↔
      name ∈ (s.closure externals first).missingRoots ∨
        name ∈ (s.closure externals second).missingRoots := by
  simp only [mem_missingRoots_iff, mem_rootsFor_append some some', or_and_right]

/-- A name that one request leads to as a reference and the other one asks for is missing where
both are made, if it is found nowhere. -/
theorem mem_external_append :
    name ∈ (s.closure externals (first ++ second)).external ↔
      (name ∈ (s.closure externals first).external ∨
        name ∈ (s.closure externals second).external) ∧
      name ∉ (s.closure externals (first ++ second)).missingRoots := by
  simp only [mem_external_closure, standing_eq_external, mem_missingRoots_iff,
    reachable_rootsFor_append some some', mem_rootsFor_append some some']
  cases external : isExternal externals name with
  | true => simp
  | false =>
      -- Only a name that is found nowhere may be external to one request and a root of the other.
      by_cases unplaced : ¬ s.Declares name ∧ s.contents.reexportOf? name = none
      · obtain ⟨undeclared, unforwarded⟩ := unplaced
        simp only [undeclared, unforwarded, Bool.false_eq_true, false_or, and_true, true_and,
          not_false_eq_true]
        tauto
      · tauto

end Requests

/-- The closure of two requests together lists, in the order of the text, what one of theirs lists;
it takes from each statement the names that one of theirs takes, and misses the roots that one of
theirs misses. Its external names are theirs, except those that it misses. -/
theorem closure_append (s : Source) (externals : List Glob.Pattern) {first second : List String}
    (some : first ≠ []) (some' : second ≠ []) :
    (s.closure externals (first ++ second)).declarations =
      (kept (fun position => s.Lists (s.closure externals first) position ∨
          s.Lists (s.closure externals second) position)
        s.contents.table.toList).map (Contents.entry s.contents.markers) ∧
    (∀ name, name ∈ (s.closure externals (first ++ second)).missingRoots ↔
      name ∈ (s.closure externals first).missingRoots ∨
        name ∈ (s.closure externals second).missingRoots) ∧
    (∀ position name, s.Takes (s.closure externals (first ++ second)) position name ↔
      s.Takes (s.closure externals first) position name ∨
        s.Takes (s.closure externals second) position name) ∧
    ∀ name, name ∈ (s.closure externals (first ++ second)).external ↔
      (name ∈ (s.closure externals first).external ∨
        name ∈ (s.closure externals second).external) ∧
      name ∉ (s.closure externals (first ++ second)).missingRoots := by
  refine ⟨?_, fun _ => mem_missingRoots_append some some',
    fun _ _ => takes_closure_append some some', fun _ => mem_external_append some some'⟩
  simp only [declarations_eq_kept, lists_closure_append some some']

/-- A type that mentions a name which is declared nowhere, and another one. -/
def ghostText : String :=
  "export { Role } from './roles'; interface Admin { role: Role } " ++
    "interface User { role: Role; ghost: Ghost }"

/-- A name that one request leads to and another one asks for is missing from both together. -/
theorem closure_append_ghost :
    ∃ s ∈ Source.read? "user.ts" ghostText,
      ["User"] ≠ [] ∧ ["Ghost", "Admin"] ≠ [] ∧
      "Ghost" ∈ (s.closure [] ["User"]).external ∧
      "Ghost" ∉ (s.closure [] (["User"] ++ ["Ghost", "Admin"])).external ∧
      s.Takes (s.closure [] (["User"] ++ ["Ghost", "Admin"])) 0 "Role" ∧
      (s.closure [] (["User"] ++ ["Ghost", "Admin"])).declarationNames = ["Admin", "User"] := by
  obtain ⟨s, read, external, missing, statement, stated, r, needed, named, eq, names, first⟩ :
      ∃ s ∈ Source.read? "user.ts" ghostText,
        "Ghost" ∈ (s.closure [] ["User"]).external ∧
        "Ghost" ∈ (s.closure [] ["Ghost", "Admin"]).missingRoots ∧
        (∃ statement ∈ s.contents.reexports[0]?, ∃ r ∈ (s.closure [] ["User"]).reexports,
          "Role" ∈ r.names ∧ r = statement.restrictTo r.names ∧
          (kept (fun position => s.Lists (s.closure [] ["User"]) position ∨
              s.Lists (s.closure [] ["Ghost", "Admin"]) position)
            s.contents.table.toList).map TableEntry.name = ["Admin", "User"] ∧
          s.contents.reexportOf? "Role" = some 0) := by
    decide +kernel
  obtain ⟨listed, missed, taken, excluded⟩ :=
    @closure_append s [] ["User"] ["Ghost", "Admin"] (by decide) (by decide)
  refine ⟨s, read, by decide, by decide, external, ?_, ?_, ?_⟩
  · intro inside
    exact ((excluded "Ghost").mp inside).2 ((missed "Ghost").mpr (.inr missing))
  · exact (taken 0 "Role").mpr (.inl ⟨first, statement, stated, r, needed, named, eq⟩)
  · rw [Closure.declarationNames, listed, List.map_map]
    exact names

end Source

end TypeClosure

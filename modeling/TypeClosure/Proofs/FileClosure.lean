import Mathlib.Data.List.Nodup
import TypeClosure.Proofs.Worklist

/-! The closure of a file lists the declarations that its roots lead to, and accounts for every
name on the way. -/

namespace TypeClosure

/-- The positions of some declarations, and what a closure says of each of them. -/
theorem forall₂_entry_filterMap {t : Table} {markers : Markers} {positions : List Nat}
    (found : ∀ position ∈ positions, ∃ e, t.get? position = some e) :
    List.Forall₂ (fun position entry => ∃ e, t.get? position = some e ∧
        entry = Contents.entry markers e)
      positions ((positions.filterMap t.get?).map (Contents.entry markers)) := by
  induction positions with
  | nil => exact .nil
  | cons position rest ih =>
      obtain ⟨e, here⟩ := found position (by simp)
      rw [List.filterMap_cons_some here, List.map_cons]
      exact .cons ⟨e, here, rfl⟩ (ih fun p member => found p (List.mem_cons_of_mem _ member))

theorem entry_congr {markers others : Markers} (same : markers.exported = others.exported) :
    Contents.entry markers = Contents.entry others := by
  funext e
  simp [Contents.entry, Markers.isExported, same]

namespace Source

variable {s : Source} {externals : List Glob.Pattern} {requested : List String} {name : String}

theorem mem_rootsFor {c : Contents} :
    name ∈ c.rootsFor requested ↔
      name ∈ if requested.isEmpty then c.exportedNames else requested := by
  unfold Contents.rootsFor
  split
  · exact Iff.rfl
  · exact mem_distinct

theorem mem_rootsFor_of_ne_nil {c : Contents} (nonempty : requested ≠ []) :
    name ∈ c.rootsFor requested ↔ name ∈ requested := by
  rw [mem_rootsFor, if_neg (by simpa using nonempty)]

/-- The positions that a worklist has found in the end. -/
theorem mem_included_worklist {roots : List String} {position : Nat} :
    position ∈ (s.contents.worklist externals roots).included ↔
      ∃ e, s.contents.table.get? position = some e ∧
        s.Reachable externals roots e.name ∧ isExternal externals e.name = false := by
  simp only [worklist_faithful.mem_included, mem_order_worklist]

theorem declarations_closure :
    (s.closure externals requested).declarations =
      ((s.contents.worklist externals (s.contents.rootsFor requested)).included.filterMap
        s.contents.table.get?).map (Contents.entry s.contents.markers) := by
  rw [← entry_congr worklist_faithful.exported]
  rfl

/-- A closure lists, in the order of the text and each once, the declarations of the names that
its roots lead to, except of those that match an external pattern. -/
theorem closure_lists_reachable (s : Source) (externals : List Glob.Pattern)
    (requested : List String) :
    ∃ positions : List Nat,
      positions.Pairwise (· < ·) ∧
      (∀ position, position ∈ positions ↔ ∃ e, s.contents.table.get? position = some e ∧
        s.Reachable externals
          (if requested.isEmpty then s.contents.exportedNames else requested) e.name ∧
        isExternal externals e.name = false) ∧
      List.Forall₂ (fun position entry => ∃ e, s.contents.table.get? position = some e ∧
          entry = Contents.entry s.contents.markers e)
        positions (s.closure externals requested).declarations := by
  have same (name : String) : s.Reachable externals (s.contents.rootsFor requested) name ↔
      s.Reachable externals
        (if requested.isEmpty then s.contents.exportedNames else requested) name :=
    ⟨Reachable.mono fun _ member => .root (mem_rootsFor.mp member),
      Reachable.mono fun _ member => .root (mem_rootsFor.mpr member)⟩
  refine ⟨(s.contents.worklist externals (s.contents.rootsFor requested)).included,
    worklist_faithful.sorted, ?_, ?_⟩
  · intro position
    simp only [← same]
    exact mem_included_worklist
  · rw [declarations_closure]
    apply forall₂_entry_filterMap
    intro position member
    obtain ⟨e, found, _⟩ := mem_included_worklist.mp member
    exact ⟨e, found⟩

theorem mem_declarationNames_closure :
    name ∈ (s.closure externals requested).declarationNames ↔
      s.Reachable externals (s.contents.rootsFor requested) name ∧
        s.contents.standing externals (s.contents.rootsFor requested) name = .declared := by
  rw [standing_eq_declared, declares_iff, Closure.declarationNames, declarations_closure]
  simp only [List.mem_map, List.mem_filterMap, mem_included_worklist]
  constructor
  · rintro ⟨_, ⟨e, ⟨position, ⟨e', found', reachable, allowed⟩, found⟩, rfl⟩, rfl⟩
    cases Option.some.inj (found'.symm.trans found)
    rw [Table.get?_eq] at found
    exact ⟨reachable, allowed, e, List.mem_of_getElem? found, rfl⟩
  · rintro ⟨reachable, allowed, e, member, rfl⟩
    obtain ⟨position, found⟩ := List.mem_iff_getElem?.mp member
    rw [← Table.get?_eq] at found
    exact ⟨_, ⟨e, ⟨position, ⟨e, found, reachable, allowed⟩, found⟩, rfl⟩, rfl⟩

/-- A declaration is listed if its name is reached and matches no external pattern. -/
theorem entry_mem_declarations_closure {e : TableEntry} (member : e ∈ s.contents.table.toList) :
    Contents.entry s.contents.markers e ∈ (s.closure externals requested).declarations ↔
      s.Reachable externals (s.contents.rootsFor requested) e.name ∧
        isExternal externals e.name = false := by
  constructor
  · intro listed
    have named : e.name ∈ (s.closure externals requested).declarationNames :=
      List.mem_map_of_mem listed
    have ⟨reachable, standing⟩ := mem_declarationNames_closure.mp named
    exact ⟨reachable, (standing_eq_declared.mp standing).1⟩
  · intro reached
    obtain ⟨position, found⟩ := List.mem_iff_getElem?.mp member
    rw [← Table.get?_eq] at found
    rw [declarations_closure]
    apply List.mem_map_of_mem
    exact List.mem_filterMap.mpr
      ⟨position, mem_included_worklist.mpr ⟨e, found, reached⟩, found⟩

/-- A closure lists the declaration at a position of the file's table. -/
def Lists (s : Source) (c : Closure) (position : Nat) : Prop :=
  ∃ e ∈ s.contents.table.get? position, Contents.entry s.contents.markers e ∈ c.declarations

instance (c : Closure) (position : Nat) : Decidable (s.Lists c position) :=
  inferInstanceAs (Decidable (∃ e ∈ s.contents.table.get? position,
    Contents.entry s.contents.markers e ∈ c.declarations))

theorem lists_iff_mem_included {position : Nat} :
    s.Lists (s.closure externals requested) position ↔
      position ∈ (s.contents.worklist externals (s.contents.rootsFor requested)).included := by
  rw [mem_included_worklist]
  apply exists_congr
  intro e
  apply and_congr_right
  intro found
  rw [Option.mem_def, Table.get?_eq] at found
  exact entry_mem_declarations_closure (List.mem_of_getElem? found)

theorem mem_external_closure :
    name ∈ (s.closure externals requested).external ↔
      s.Reachable externals (s.contents.rootsFor requested) name ∧
        s.contents.standing externals (s.contents.rootsFor requested) name = .external := by
  change name ∈ (s.contents.worklist externals (s.contents.rootsFor requested)).external ↔ _
  rw [worklist_faithful.external_eq, List.mem_filter, mem_order_worklist, decide_eq_true_iff]

theorem mem_missingRoots_closure :
    name ∈ (s.closure externals requested).missingRoots ↔
      s.Reachable externals (s.contents.rootsFor requested) name ∧
        s.contents.standing externals (s.contents.rootsFor requested) name = .missing := by
  change name ∈ (s.contents.worklist externals (s.contents.rootsFor requested)).missing ↔ _
  rw [worklist_faithful.missing_eq, List.mem_filter, mem_order_worklist, decide_eq_true_iff]

/-- The names that a closure takes from the statement with some position. -/
def namesForwardedBy (s : Source) (externals : List Glob.Pattern) (roots : List String)
    (position : Nat) : List String :=
  (s.contents.worklist externals roots).order.filter
    (s.contents.standing externals roots · = .forwarded position)

theorem mem_namesForwardedBy {roots : List String} {position : Nat} :
    name ∈ s.namesForwardedBy externals roots position ↔
      s.Reachable externals roots name ∧
        s.contents.standing externals roots name = .forwarded position := by
  rw [namesForwardedBy, List.mem_filter, mem_order_worklist, decide_eq_true_iff]

theorem mem_reexports_closure {r : Reexport} :
    r ∈ (s.closure externals requested).reexports ↔
      ∃ position statement, s.contents.reexports[position]? = some statement ∧
        s.namesForwardedBy externals (s.contents.rootsFor requested) position ≠ [] ∧
        r = statement.restrictTo
          (s.namesForwardedBy externals (s.contents.rootsFor requested) position) := by
  change r ∈ s.contents.neededReexports
    (s.contents.worklist externals (s.contents.rootsFor requested)).forwarded ↔ _
  rw [worklist_faithful.forwarded_eq, Contents.neededReexports, List.mem_map]
  constructor
  · rintro ⟨⟨statement, names⟩, member, rfl⟩
    obtain ⟨member, needed⟩ := List.mem_filter.mp member
    obtain ⟨position, found⟩ := List.mem_iff_getElem?.mp member
    obtain ⟨statement_at, names_at⟩ := List.getElem?_zip_eq_some.mp found
    rw [List.getElem?_mapIdx, statement_at] at names_at
    cases names_at
    refine ⟨position, statement, statement_at, ?_, rfl⟩
    intro none
    rw [namesForwardedBy] at none
    simp only [none] at needed
    contradiction
  · rintro ⟨position, statement, statement_at, needed, rfl⟩
    refine ⟨(statement, _), List.mem_filter.mpr ⟨?_, by simpa using needed⟩, rfl⟩
    refine List.mem_iff_getElem?.mpr ⟨position, List.getElem?_zip_eq_some.mpr ⟨statement_at, ?_⟩⟩
    rw [List.getElem?_mapIdx, statement_at]
    rfl

theorem map_names_reexports_closure :
    (s.closure externals requested).reexports.map Reexport.names =
      (s.contents.worklist externals (s.contents.rootsFor requested)).forwarded.filter
        (!·.isEmpty) := by
  change (s.contents.neededReexports
    (s.contents.worklist externals (s.contents.rootsFor requested)).forwarded).map _ = _
  have same : (s.contents.worklist externals (s.contents.rootsFor requested)).forwarded.length ≤
      s.contents.reexports.length := by
    rw [worklist_faithful.forwarded_eq]
    simp
  rw [Contents.neededReexports, List.map_map]
  conv => rhs; rw [← List.map_snd_zip same, List.filter_map]
  simp [Function.comp_def]

/-- Statements that forward needed names have none in common, and each has a name once. -/
theorem nodup_flatten_forwarded {roots : List String} :
    (s.contents.worklist externals roots).forwarded.flatten.Nodup := by
  rw [worklist_faithful.forwarded_eq, List.nodup_flatten]
  constructor
  · intro names member
    obtain ⟨position, _, rfl⟩ := List.mem_mapIdx.mp member
    exact worklist_faithful.nodup.filter _
  · rw [List.pairwise_iff_getElem]
    intro first second _ _ less other inFirst inSecond
    simp only [List.getElem_mapIdx, List.mem_filter, decide_eq_true_iff] at inFirst inSecond
    have same := Standing.forwarded.inj (inFirst.2.symm.trans inSecond.2)
    omega

theorem nodup_names_reexports_closure :
    ((s.closure externals requested).reexports.flatMap Reexport.names).Nodup := by
  rw [List.flatMap_def, map_names_reexports_closure, List.flatten_filter_not_isEmpty]
  exact nodup_flatten_forwarded

/-- A forwarded name stands in the entry of its statement. -/
theorem exists_mem_reexports_closure {position : Nat}
    (reachable : s.Reachable externals (s.contents.rootsFor requested) name)
    (forwarded : s.contents.standing externals (s.contents.rootsFor requested) name =
      .forwarded position) :
    ∃ statement, s.contents.reexports[position]? = some statement ∧
      ∃ r ∈ (s.closure externals requested).reexports,
        name ∈ r.names ∧ r = statement.restrictTo r.names := by
  have member := mem_namesForwardedBy.mpr ⟨reachable, forwarded⟩
  obtain ⟨statement, stated⟩ :=
    Contents.getElem?_of_reexportOf? (standing_eq_forwarded.mp forwarded).2.2
  refine ⟨statement, stated, _, mem_reexports_closure.mpr
    ⟨position, statement, stated, List.ne_nil_of_mem member, rfl⟩, ?_, ?_⟩
  · rw [Reexport.names_restrictTo]
    exact member
  · rw [Reexport.names_restrictTo]

end Source

end TypeClosure

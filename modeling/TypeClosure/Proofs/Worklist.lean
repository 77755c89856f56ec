import TypeClosure.Proofs.Collection
import TypeClosure.Proofs.Reachability

/-! What a worklist keeps from one name to the next, and what it therefore comes to. -/

namespace TypeClosure

theorem mem_insertPosition {position other : Nat} {ps : List Nat} :
    other ∈ insertPosition position ps ↔ other = position ∨ other ∈ ps := by
  induction ps with
  | nil => simp [insertPosition]
  | cons p ps ih =>
      simp only [insertPosition]
      split
      · simp
      · split
        · next same => simp [same]
        · simp only [List.mem_cons, ih]
          exact or_left_comm

theorem pairwise_insertPosition {position : Nat} {ps : List Nat}
    (sorted : ps.Pairwise (· < ·)) : (insertPosition position ps).Pairwise (· < ·) := by
  induction ps with
  | nil => simp [insertPosition]
  | cons p ps ih =>
      obtain ⟨before, rest⟩ := List.pairwise_cons.mp sorted
      simp only [insertPosition]
      split
      · next less =>
          refine List.pairwise_cons.mpr ⟨?_, sorted⟩
          intro q member
          rcases List.mem_cons.mp member with same | member
          · omega
          · have := before q member
            omega
      · split
        · exact sorted
        · refine List.pairwise_cons.mpr ⟨?_, ih rest⟩
          intro q member
          rcases mem_insertPosition.mp member with same | member
          · omega
          · exact before q member

theorem mem_insertAll {entries : List (Nat × TableEntry)} {ps : List Nat} {position : Nat} :
    position ∈ entries.foldl (fun ps e => insertPosition e.1 ps) ps ↔
      position ∈ ps ∨ ∃ e, (position, e) ∈ entries := by
  induction entries generalizing ps with
  | nil => simp
  | cons entry rest ih =>
      obtain ⟨place, e⟩ := entry
      rw [List.foldl_cons, ih, mem_insertPosition]
      constructor
      · rintro ((same | member) | ⟨e', member⟩)
        · exact .inr ⟨e, by simp [same]⟩
        · exact .inl member
        · exact .inr ⟨e', List.mem_cons_of_mem _ member⟩
      · rintro (member | ⟨e', member⟩)
        · exact .inl (.inr member)
        · rcases List.mem_cons.mp member with same | member
          · exact .inl (.inl (Prod.mk.inj same).1)
          · exact .inr ⟨e', member⟩

theorem pairwise_insertAll {entries : List (Nat × TableEntry)} {ps : List Nat}
    (sorted : ps.Pairwise (· < ·)) :
    (entries.foldl (fun ps e => insertPosition e.1 ps) ps).Pairwise (· < ·) := by
  induction entries generalizing ps with
  | nil => exact sorted
  | cons entry rest ih => exact ih (pairwise_insertPosition sorted)

namespace Worklist

/-- The names that have been looked up, the first one first. -/
def order (w : Worklist) : List String := w.markers.visited.reverse

theorem mem_order {w : Worklist} {name : String} :
    name ∈ w.order ↔ w.markers.isVisited name = true := by
  simp [order, Markers.isVisited]

/-- What a worklist has done for the names that it has looked up, and what it still owes. -/
structure Faithful (s : Source) (externals : List Glob.Pattern) (roots : List String)
    (w : Worklist) : Prop where
  nodup : w.order.Nodup
  exported : w.markers.exported = s.contents.markers.exported
  reachable : ∀ name, name ∈ w.queue ∨ name ∈ w.order → s.Reachable externals roots name
  roots_met : ∀ name ∈ roots, name ∈ w.queue ∨ name ∈ w.order
  references_met : ∀ name ∈ w.order, isExternal externals name = false →
    ∀ other, s.Refers name other → other ∈ w.queue ∨ other ∈ w.order
  sorted : w.included.Pairwise (· < ·)
  mem_included : ∀ position, position ∈ w.included ↔ ∃ e,
    s.contents.table.get? position = some e ∧ e.name ∈ w.order ∧
      isExternal externals e.name = false
  external_eq : w.external =
    w.order.filter (s.contents.standing externals roots · = .external)
  forwarded_eq : w.forwarded = s.contents.reexports.mapIdx fun position _ =>
    w.order.filter (s.contents.standing externals roots · = .forwarded position)
  missing_eq : w.missing =
    w.order.filter (s.contents.standing externals roots · = .missing)

variable {s : Source} {externals : List Glob.Pattern} {roots : List String} {w : Worklist}
  {name : String}

theorem order_start : (start s.contents roots).order = [] := by
  rw [List.eq_nil_iff_forall_not_mem]
  intro name member
  have visited := mem_order.mp member
  rw [start, s.isVisited_contents] at visited
  contradiction

theorem faithful_start : (start s.contents roots).Faithful s externals roots where
  nodup := by simp [order_start]
  exported := rfl
  reachable := by
    rintro name (queued | visited)
    · exact .root queued
    · simp [order_start] at visited
  roots_met := fun name member => .inl member
  references_met := by simp [order_start]
  sorted := List.Pairwise.nil
  mem_included := by
    rw [order_start]
    simp [start]
  external_eq := by
    rw [order_start]
    rfl
  forwarded_eq := by
    rw [order_start]
    apply List.ext_getElem?
    intro position
    simp only [start, List.getElem?_map, List.getElem?_mapIdx, List.filter_nil]
  missing_eq := by
    rw [order_start]
    rfl

/-- What a worklist does with a name of some standing. -/
def settle (c : Contents) (w : Worklist) (name : String) : Standing → Worklist
  | .external =>
      { w with
        markers := w.markers.markVisited name
        external := w.external ++ [name] }
  | .declared =>
      { w with
        markers := w.markers.markVisited name
        queue := w.queue ++
          (mentioned c w.markers name).filter (!(w.markers.markVisited name).isVisited ·)
        included := (c.table.located name).foldl (fun ps e => insertPosition e.1 ps) w.included }
  | .forwarded position =>
      { w with
        markers := w.markers.markVisited name
        forwarded := w.forwarded.modify position (· ++ [name]) }
  | .missing =>
      { w with
        markers := w.markers.markVisited name
        missing := w.missing ++ [name] }

theorem visit_eq_settle (c : Contents) (externals : List Glob.Pattern) (roots : List String)
    (w : Worklist) (name : String) :
    w.visit c externals roots name = w.settle c name (c.standing externals roots name) := by
  unfold visit Contents.standing
  split
  · rfl
  · split
    · rfl
    · cases c.reexportOf? name with
      | some position => rfl
      | none => cases roots.contains name <;> rfl

/-- What looking up a name, with some names left in the queue behind it, does to a worklist. -/
structure LooksUp (s : Source) (w : Worklist) (name : String) (rest : List String)
    (standing : Standing) (after : Worklist) : Prop where
  order : after.order = w.order ++ [name]
  exported : after.markers.exported = w.markers.exported
  mem_queue : ∀ other, other ∈ after.queue ↔
    other ∈ rest ∨ standing = .declared ∧ s.Refers name other ∧ other ∉ after.order
  sorted : w.included.Pairwise (· < ·) → after.included.Pairwise (· < ·)
  mem_included : ∀ position, position ∈ after.included ↔
    position ∈ w.included ∨
      standing = .declared ∧ ∃ e, s.contents.table.get? position = some e ∧ e.name = name
  external : after.external = w.external ++ [name].filter fun _ => standing = .external
  forwarded : ∀ position, after.forwarded[position]? = w.forwarded[position]?.map
    (· ++ [name].filter fun _ => standing = .forwarded position)
  missing : after.missing = w.missing ++ [name].filter fun _ => standing = .missing

theorem markers_settle {c : Contents} (standing : Standing) :
    (w.settle c name standing).markers = w.markers.markVisited name := by
  cases standing <;> rfl

theorem order_settle {c : Contents} (fresh : w.markers.isVisited name = false)
    (standing : Standing) : (w.settle c name standing).order = w.order ++ [name] := by
  rw [order, markers_settle, Markers.markVisited, fresh]
  simp [order]

theorem queue_settle (fresh : w.markers.isVisited name = false) (standing : Standing) :
    (w.settle s.contents name standing).queue = w.queue ++
      (if standing = .declared then s.references name else []).filter
        (· ∉ (w.settle s.contents name standing).order) := by
  cases standing with
  | declared =>
      rw [if_pos rfl, Source.references_eq, ← mentioned_of_not_visited s.contents fresh]
      refine congrArg (w.queue ++ ·) (List.filter_congr ?_)
      intro other _
      simp [settle, mem_order]
  | _ => simp [settle]

theorem mem_queue_settle (fresh : w.markers.isVisited name = false) {standing : Standing}
    {other : String} :
    other ∈ (w.settle s.contents name standing).queue ↔
      other ∈ w.queue ∨ standing = .declared ∧ s.Refers name other ∧
        other ∉ (w.settle s.contents name standing).order := by
  rw [queue_settle fresh, List.mem_append, List.mem_filter, decide_eq_true_iff,
    ← Source.mem_references]
  by_cases declared : standing = .declared
  · simp only [declared, if_true, true_and]
  · simp only [declared, if_false, List.not_mem_nil, false_and]

theorem looksUp_settle (rest : List String) (fresh : w.markers.isVisited name = false)
    (standing : Standing) :
    LooksUp s w name rest standing
      ({ w with queue := rest }.settle s.contents name standing) where
  order := order_settle (w := { w with queue := rest }) fresh standing
  exported := by
    rw [markers_settle, Markers.markVisited, fresh]
    rfl
  mem_queue := fun _ => mem_queue_settle (w := { w with queue := rest }) fresh
  sorted := by
    intro sorted
    cases standing with
    | declared => exact pairwise_insertAll sorted
    | _ => exact sorted
  mem_included := by
    intro position
    cases standing with
    | declared => simp only [settle, mem_insertAll, Table.mem_located, true_and]
    | _ => simp [settle]
  external := by cases standing <;> simp [settle]
  forwarded := by
    intro position
    cases standing with
    | forwarded other =>
        by_cases same : other = position
        · simp [settle, same]
        · simp [settle, same]
    | _ => simp [settle]
  missing := by cases standing <;> simp [settle]

theorem next_of_visited {rest : List String} (queued : w.queue = name :: rest)
    (visited : w.markers.isVisited name = true) :
    w.next s.contents externals roots = { w with queue := rest } := by
  simp only [next, queued, visited, if_true]

theorem next_of_fresh {rest : List String} (queued : w.queue = name :: rest)
    (fresh : w.markers.isVisited name = false) :
    w.next s.contents externals roots =
      { w with queue := rest }.settle s.contents name
        (s.contents.standing externals roots name) := by
  simp only [next, queued, fresh, Bool.false_eq_true, if_false]
  exact visit_eq_settle _ _ _ _ _

theorem looksUp_next {rest : List String} (queued : w.queue = name :: rest)
    (fresh : w.markers.isVisited name = false) :
    LooksUp s w name rest (s.contents.standing externals roots name)
      (w.next s.contents externals roots) := by
  rw [next_of_fresh queued fresh]
  exact looksUp_settle rest fresh _

namespace Faithful

variable {rest : List String} {after : Worklist}

theorem met_of_looksUp (looked : LooksUp s w name rest standing after)
    (queued : w.queue = name :: rest) {other : String}
    (owed : other ∈ w.queue ∨ other ∈ w.order) : other ∈ after.queue ∨ other ∈ after.order := by
  rcases owed with owed | visited
  · rw [queued] at owed
    rcases List.mem_cons.mp owed with same | owed
    · exact .inr (by simp [looked.order, same])
    · exact .inl ((looked.mem_queue other).mpr (.inl owed))
  · exact .inr (by simp [looked.order, visited])

/-- Looking up the name at the front of the queue keeps the worklist faithful. -/
theorem of_looksUp (faithful : w.Faithful s externals roots) (queued : w.queue = name :: rest)
    (fresh : name ∉ w.order)
    (looked : LooksUp s w name rest (s.contents.standing externals roots name) after) :
    after.Faithful s externals roots where
  nodup := by
    rw [looked.order]
    refine List.nodup_append.mpr ⟨faithful.nodup, by simp, ?_⟩
    intro a ha b hb same
    rw [List.mem_singleton.mp hb] at same
    exact fresh (same ▸ ha)
  exported := looked.exported.trans faithful.exported
  reachable := by
    have reached : s.Reachable externals roots name :=
      faithful.reachable name (.inl (by simp [queued]))
    rintro other (owed | visited)
    · rcases (looked.mem_queue other).mp owed with owed | ⟨declared, refers, _⟩
      · exact faithful.reachable other (.inl (by simp [queued, owed]))
      · exact .reference reached (Source.standing_eq_declared.mp declared).1 refers
    · rw [looked.order] at visited
      rcases List.mem_append.mp visited with visited | new
      · exact faithful.reachable other (.inr visited)
      · rw [List.mem_singleton.mp new]
        exact reached
  roots_met := fun root member => met_of_looksUp looked queued (faithful.roots_met root member)
  references_met := by
    intro visitedName visited allowed other refers
    rw [looked.order] at visited
    rcases List.mem_append.mp visited with visited | new
    · exact met_of_looksUp looked queued
        (faithful.references_met visitedName visited allowed other refers)
    · rw [List.mem_singleton.mp new] at allowed refers
      by_cases seen : other ∈ after.order
      · exact .inr seen
      · have declared : s.contents.standing externals roots name = .declared :=
          Source.standing_of_declares allowed refers.declares
        exact .inl ((looked.mem_queue other).mpr (.inr ⟨declared, refers, seen⟩))
  sorted := looked.sorted faithful.sorted
  mem_included := by
    intro position
    rw [looked.mem_included, looked.order, faithful.mem_included]
    constructor
    · rintro (⟨e, found, visited, allowed⟩ | ⟨declared, e, found, same⟩)
      · exact ⟨e, found, by simp [visited], allowed⟩
      · exact ⟨e, found, by simp [same], same ▸ (Source.standing_eq_declared.mp declared).1⟩
    · rintro ⟨e, found, visited, allowed⟩
      rcases List.mem_append.mp visited with visited | new
      · exact .inl ⟨e, found, visited, allowed⟩
      · have same : e.name = name := List.mem_singleton.mp new
        refine .inr ⟨Source.standing_eq_declared.mpr ⟨same ▸ allowed, ?_⟩, e, found, same⟩
        rw [Table.get?_eq] at found
        exact Source.declares_iff.mpr ⟨e, List.mem_of_getElem? found, same⟩
  external_eq := by
    rw [looked.external, looked.order, List.filter_append, ← faithful.external_eq]
    simp [List.filter_cons]
  forwarded_eq := by
    apply List.ext_getElem?
    intro position
    rw [looked.forwarded, faithful.forwarded_eq, looked.order]
    simp [Option.map_map, Function.comp_def, List.filter_cons]
  missing_eq := by
    rw [looked.missing, looked.order, List.filter_append, ← faithful.missing_eq]
    simp [List.filter_cons]

/-- A name that has been looked up already leaves the queue. -/
theorem of_visited (faithful : w.Faithful s externals roots) (queued : w.queue = name :: rest)
    (visited : name ∈ w.order) : ({ w with queue := rest } : Worklist).Faithful s externals roots :=
  have met {other : String} (owed : other ∈ w.queue ∨ other ∈ w.order) :
      other ∈ rest ∨ other ∈ w.order := by
    rw [queued, List.mem_cons] at owed
    rcases owed with (same | owed) | seen
    · exact .inr (same ▸ visited)
    · exact .inl owed
    · exact .inr seen
  { faithful with
    reachable := fun other owed => faithful.reachable other (by
      rcases owed with owed | seen
      · exact .inl (by simp [queued, show other ∈ rest from owed])
      · exact .inr seen)
    roots_met := fun root member => met (faithful.roots_met root member)
    references_met := fun from' seen allowed other refers =>
      met (faithful.references_met from' seen allowed other refers) }

theorem next (faithful : w.Faithful s externals roots) (busy : w.queue ≠ []) :
    (w.next s.contents externals roots).Faithful s externals roots := by
  cases queued : w.queue with
  | nil => contradiction
  | cons name rest =>
      cases fresh : w.markers.isVisited name with
      | true =>
          rw [next_of_visited queued fresh]
          exact faithful.of_visited queued (mem_order.mpr fresh)
      | false =>
          refine faithful.of_looksUp queued ?_ (looksUp_next queued fresh)
          rw [mem_order, fresh]
          exact Bool.false_ne_true

end Faithful

/-- A worklist goes on until nothing is owed, and stays faithful. -/
theorem run_faithful (w : Worklist) (faithful : w.Faithful s externals roots) :
    (w.run s.contents externals roots).Faithful s externals roots ∧
      (w.run s.contents externals roots).queue = [] := by
  fun_induction run s.contents externals roots w with
  | case1 w done => exact ⟨faithful, done⟩
  | case2 w busy ih => exact ih (faithful.next busy)

end Worklist

namespace Source

variable {s : Source} {externals : List Glob.Pattern} {roots : List String}

theorem worklist_faithful :
    (s.contents.worklist externals roots).Faithful s externals roots :=
  (Worklist.run_faithful _ Worklist.faithful_start).1

/-- The names that a worklist has looked up in the end are those that can be reached. -/
theorem mem_order_worklist {name : String} :
    name ∈ (s.contents.worklist externals roots).order ↔ s.Reachable externals roots name := by
  obtain ⟨faithful, done⟩ := @Worklist.run_faithful s externals roots
    (Worklist.start s.contents roots) Worklist.faithful_start
  constructor
  · intro seen
    exact worklist_faithful.reachable name (.inr seen)
  · intro reachable
    induction reachable with
    | root member =>
        rcases faithful.roots_met _ member with owed | seen
        · simp [done] at owed
        · exact seen
    | reference _ allowed refers seen =>
        rcases faithful.references_met _ seen allowed _ refers with owed | seen
        · simp [done] at owed
        · exact seen

end Source

end TypeClosure

import Mathlib.Data.List.Nodup
import Mathlib.Logic.Function.Iterate
import TypeClosure.Proofs.Worklist

/-!
The steps of a worklist, one by one. Each takes a name from the queue; a name that has been looked up
is passed over, another one is looked up. After a number of steps that roots and references bound, the
queue is empty; until then no name is looked up twice, and no declaration extracted twice.
-/

namespace TypeClosure

/-- The references of the declaration at a position. -/
def Contents.referencesAt (c : Contents) (position : Nat) : List String :=
  match c.table.get? position with
  | some e => e.decl.references
  | none => []

theorem Source.flatMap_referencesAt_positions (s : Source) (name : String) :
    (s.contents.table.positions name).flatMap s.contents.referencesAt = s.references name := by
  rw [references_eq, ← Table.named_eq, Table.named, Table.located]
  induction s.contents.table.positions name with
  | nil => rfl
  | cons position rest ih =>
      rw [List.flatMap_cons, ih, Contents.referencesAt]
      cases found : s.contents.table.get? position with
      | none => simp [found]
      | some e => simp [found]

theorem Table.nodup_positions (t : Table) (name : String) : (t.positions name).Nodup := by
  have all : (t.toList.zipIdx.map Prod.snd).Nodup := by
    rw [List.zipIdx_map_snd]
    exact List.nodup_range'
  refine all.sublist ?_
  rw [positions_eq]
  induction t.toList.zipIdx with
  | nil => exact .slnil
  | cons place rest ih =>
      rw [List.filterMap_cons, List.map_cons]
      by_cases same : place.1.name = name
      · simpa [same] using ih
      · simpa [same] using ih.cons place.2

namespace Worklist

variable {s : Source} {externals : List Glob.Pattern} {roots : List String} {w : Worklist}
  {name : String} {rest : List String}

/-! ### One step -/

/-- The name that the next step looks up: the one at the front of the queue, unless it has been
looked up. -/
def lookedUp? (w : Worklist) : Option String := w.queue.head?.filter (!w.markers.isVisited ·)

/-- The positions of the declarations that the next step extracts. -/
def extracted (c : Contents) (externals : List Glob.Pattern) (w : Worklist) : List Nat :=
  match w.lookedUp? with
  | some name => if isExternal externals name then [] else c.table.positions name
  | none => []

theorem lookedUp?_eq_some :
    w.lookedUp? = some name ↔ w.queue.head? = some name ∧ w.markers.isVisited name = false := by
  simp [lookedUp?, Option.filter_eq_some_iff]

/-- What one step does. A name that has been looked up only leaves the queue. Another one is put
where its standing says; its declarations are included, and what they refer to joins the queue, but
for names that have been looked up. -/
structure Advances (s : Source) (externals : List Glob.Pattern) (roots : List String)
    (w after : Worklist) : Prop where
  passes : w.lookedUp? = none → after = { w with queue := w.queue.tail }
  looksUp : ∀ name, w.lookedUp? = some name →
    LooksUp s w name w.queue.tail (s.contents.standing externals roots name) after
  queue : after.queue = w.queue.tail ++
    ((w.extracted s.contents externals).flatMap s.contents.referencesAt).filter (· ∉ after.order)
  included : ∀ position, position ∈ after.included ↔
    position ∈ w.included ∨ position ∈ w.extracted s.contents externals

theorem extracted_of_lookedUp (roots : List String) (looked : w.lookedUp? = some name) :
    w.extracted s.contents externals =
      if s.contents.standing externals roots name = .declared then s.contents.table.positions name
      else [] := by
  simp only [extracted, looked]
  by_cases declared : s.contents.standing externals roots name = .declared
  · rw [if_pos declared, (Source.standing_eq_declared.mp declared).1]
    rfl
  · rw [if_neg declared, ite_eq_left_iff, Bool.not_eq_true]
    intro allowed
    by_contra some
    exact declared
      (Source.standing_of_declares allowed (Source.declares_iff_positions.mpr some))

variable (s externals roots)

theorem advances_next (busy : w.queue ≠ []) :
    Advances s externals roots w (w.next s.contents externals roots) := by
  obtain ⟨name, rest, queued⟩ := List.exists_cons_of_ne_nil busy
  have front : w.queue.head? = some name := by rw [queued, List.head?_cons]
  cases seen : w.markers.isVisited name with
  | true =>
      have passed : w.lookedUp? = none := by simp [lookedUp?, front, seen]
      rw [next_of_visited queued seen]
      refine ⟨?_, ?_, ?_, ?_⟩
      · simp [queued]
      · simp [passed]
      · simp [extracted, passed, queued]
      · simp [extracted, passed]
  | false =>
      have looked : w.lookedUp? = some name := lookedUp?_eq_some.mpr ⟨front, seen⟩
      have looksUp : LooksUp s w name rest (s.contents.standing externals roots name)
          (w.next s.contents externals roots) := looksUp_next queued seen
      refine ⟨?_, ?_, ?_, ?_⟩
      · simp [looked]
      · intro other same
        cases looked.symm.trans same
        rwa [queued]
      · rw [next_of_fresh queued seen, queued, List.tail_cons,
          extracted_of_lookedUp roots looked, queue_settle (w := { w with queue := rest }) seen]
        split
        · rw [s.flatMap_referencesAt_positions]
        · rfl
      · intro position
        rw [looksUp.mem_included, extracted_of_lookedUp roots looked]
        split
        · next declared => simp [declared, Table.mem_positions]
        · next other => simp [other]

/-! ### All steps -/

theorem order_next (w : Worklist) :
    (w.next s.contents externals roots).order = w.order ++ w.lookedUp?.toList := by
  cases queued : w.queue with
  | nil => simp [next, lookedUp?, queued]
  | cons name rest =>
      cases seen : w.markers.isVisited name with
      | true =>
          rw [next_of_visited queued seen]
          simp [order, lookedUp?, queued, seen]
      | false =>
          have looked : w.lookedUp? = some name :=
            lookedUp?_eq_some.mpr ⟨by rw [queued, List.head?_cons], seen⟩
          rw [(looksUp_next queued seen).order, looked, Option.toList_some]

/-- The worklist after a number of steps. -/
def after (s : Source) (externals : List Glob.Pattern) (roots : List String) (steps : Nat)
    (w : Worklist) : Worklist :=
  (next s.contents externals roots)^[steps] w

theorem after_succ (steps : Nat) :
    w.after s externals roots (steps + 1) =
      (w.after s externals roots steps).next s.contents externals roots :=
  Function.iterate_succ_apply' _ _ _

theorem order_after (steps : Nat) :
    (w.after s externals roots steps).order = w.order ++
      (List.range steps).filterMap fun i => (w.after s externals roots i).lookedUp? := by
  induction steps with
  | zero => simp [after]
  | succ steps ih =>
      rw [after_succ, order_next, ih, List.range_succ, List.filterMap_append, List.append_assoc]
      rfl

/-- A worklist comes to its end after no more steps than there are names that may join the queue. -/
theorem exists_steps (w : Worklist) :
    ∃ steps ≤ w.remaining s.contents,
      (∀ i, (w.after s externals roots i).queue = [] ↔ steps ≤ i) ∧
        w.after s externals roots steps = w.run s.contents externals roots := by
  fun_induction run s.contents externals roots w with
  | case1 w done =>
      have stays : w.next s.contents externals roots = w := by simp [next, done]
      have same (i : Nat) : w.after s externals roots i = w := Function.iterate_fixed stays i
      exact ⟨0, Nat.zero_le _, by simp [same, done], same 0⟩
  | case2 w busy ih =>
      obtain ⟨steps, bound, ends, eq⟩ := ih
      have less := remaining_next_lt s.contents externals roots busy
      refine ⟨steps + 1, by omega, ?_, eq⟩
      intro i
      cases i with
      | zero => exact iff_of_false busy (by omega)
      | succ i => exact (ends i).trans Nat.succ_le_succ_iff.symm

theorem pendingReferences_of_unvisited {markers : Markers} {entries : List TableEntry}
    (unvisited : ∀ name, markers.isVisited name = false) :
    pendingReferences markers entries =
      (entries.flatMap (·.decl.references)).length := by
  induction entries with
  | nil => rfl
  | cons e rest ih =>
      rw [pendingReferences, unvisited, ih, List.flatMap_cons, List.length_append]
      rfl

theorem remaining_start :
    (start s.contents roots).remaining s.contents =
      (roots ++ s.listing.declarations.flatMap (·.mentions.tail)).length := by
  rw [remaining, start, pendingReferences_of_unvisited s.isVisited_contents, Source.listing,
    List.flatMap_map, List.length_append]
  rfl

theorem faithful_after (steps : Nat) :
    ((start s.contents roots).after s externals roots steps).Faithful s externals roots := by
  induction steps with
  | zero => exact faithful_start
  | succ steps ih =>
      rw [after_succ]
      by_cases done : ((start s.contents roots).after s externals roots steps).queue = []
      · simpa [next, done] using ih
      · exact ih.next done

theorem extracted_eq_flatMap (w : Worklist) :
    w.extracted s.contents externals = w.lookedUp?.toList.flatMap fun name =>
      if isExternal externals name then [] else s.contents.table.positions name := by
  cases looked : w.lookedUp? with
  | none => simp [extracted, looked]
  | some name => simp [extracted, looked]

theorem nodup_flatMap_positions {names : List String} (nodup : names.Nodup) (c : Contents) :
    (names.flatMap fun name =>
      if isExternal externals name then [] else c.table.positions name).Nodup := by
  have member {name : String} {position : Nat}
      (found : position ∈ if isExternal externals name then [] else c.table.positions name) :
      ∃ e, c.table.get? position = some e ∧ e.name = name := by
    split at found
    · exact absurd found List.not_mem_nil
    · exact Table.mem_positions.mp found
  refine List.nodup_flatMap.mpr ⟨?_, nodup.imp ?_⟩
  · intro name _
    split
    · exact List.nodup_nil
    · exact c.table.nodup_positions name
  · intro name other different position found found'
    -- A declaration has one name only.
    obtain ⟨e, here, rfl⟩ := member found
    obtain ⟨e', there, rfl⟩ := member found'
    exact different (congrArg _ (Option.some.inj (here.symm.trans there)))

end Worklist

/-- The worklist of a file comes to its end, however the file's declarations refer to each other and
however often a name joins the queue: after no more steps than there are roots and references, the
queue is empty for the first time. Each step before that passes over a name that has been looked up,
or looks it up. In all of them no name is looked up twice, and no declaration extracted twice. -/
theorem worklist_terminates (s : Source) (externals : List Glob.Pattern) (roots : List String) :
    let state := fun i => (Worklist.start s.contents roots).after s externals roots i
    ∃ steps ≤ (roots ++ s.listing.declarations.flatMap (·.mentions.tail)).length,
      (∀ i, (state i).queue = [] ↔ steps ≤ i) ∧
      state steps = s.contents.worklist externals roots ∧
      (∀ i < steps, Worklist.Advances s externals roots (state i) (state (i + 1))) ∧
      ((List.range steps).filterMap fun i => (state i).lookedUp?).Nodup ∧
      ((List.range steps).flatMap fun i => (state i).extracted s.contents externals).Nodup := by
  intro state
  obtain ⟨steps, bound, ends, eq⟩ := Worklist.exists_steps s externals roots
    (Worklist.start s.contents roots)
  rw [Worklist.remaining_start] at bound
  have order : (state steps).order =
      (List.range steps).filterMap fun i => (state i).lookedUp? := by
    rw [Worklist.order_after, Worklist.order_start, List.nil_append]
  have nodup := (Worklist.faithful_after s externals roots steps).nodup
  rw [order] at nodup
  refine ⟨steps, bound, ends, eq, ?_, nodup, ?_⟩
  · intro i less
    have busy : (state i).queue ≠ [] := fun done => absurd ((ends i).mp done) (by omega)
    rw [show state (i + 1) = (state i).next s.contents externals roots from
      Worklist.after_succ s externals roots i]
    exact Worklist.advances_next s externals roots busy
  · simp only [Worklist.extracted_eq_flatMap]
    rw [← List.flatMap_assoc, ← List.filterMap_eq_flatMap_toList]
    exact Worklist.nodup_flatMap_positions externals nodup s.contents

end TypeClosure

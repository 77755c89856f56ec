import TypeClosure.Contents
import TypeClosure.Declaration.References
import TypeClosure.Glob.Pattern

/-!
The worklist of a file. Names are taken from a queue and looked up, each once; the names that the
declarations of a name mention join the queue. A name that matches an external pattern is not
looked up.
-/

namespace TypeClosure

/-- Whether a name counts as declared elsewhere. -/
def isExternal (externals : List Glob.Pattern) (name : String) : Bool :=
  externals.any (·.matches name)

/-- Puts a position among others that stand in order, unless it is one of them. -/
def insertPosition (position : Nat) : List Nat → List Nat
  | [] => [position]
  | p :: ps =>
      if position < p then position :: p :: ps
      else if position = p then p :: ps
      else p :: insertPosition position ps

/-- How far the names of a file have been followed. -/
structure Worklist where
  queue : List String
  markers : Markers
  /-- The positions of the declarations that have been found, in order. -/
  included : List Nat := []
  /-- Names that are declared elsewhere, in the order of their discovery. -/
  external : List String := []
  /-- For each statement that forwards names, the needed ones. -/
  forwarded : List (List String)
  missing : List String := []
deriving Repr, DecidableEq

/-- The number of references from declarations whose names have not been visited. -/
def pendingReferences (markers : Markers) : List TableEntry → Nat
  | [] => 0
  | e :: rest =>
      (if markers.isVisited e.name then 0 else e.decl.references.length) +
        pendingReferences markers rest

namespace Worklist

variable (c : Contents) (externals : List Glob.Pattern) (roots : List String)

/-- The worklist of a file before any of its roots has been looked up. -/
def start : Worklist :=
  { queue := roots, markers := c.markers, forwarded := c.reexports.map fun _ => [] }

/-- What the declarations of a name mention under markers, without their own name in front. -/
def mentioned (markers : Markers) (name : String) : List String :=
  (c.table.named name).flatMap fun e => (e.decl.mentionsUnder markers).tail

/-- Looks up a name: among the external patterns first, then among the declarations, and then
among the statements that forward names. -/
def visit (w : Worklist) (name : String) : Worklist :=
  let marked := { w with markers := w.markers.markVisited name }
  if isExternal externals name then { marked with external := w.external ++ [name] }
  else if !(c.table.positions name).isEmpty then
    { marked with
      queue := w.queue ++ (mentioned c w.markers name).filter (!marked.markers.isVisited ·)
      included := (c.table.located name).foldl (fun ps e => insertPosition e.1 ps) w.included }
  else
    match c.reexportOf? name with
    | some position => { marked with forwarded := w.forwarded.modify position (· ++ [name]) }
    | none =>
        if roots.contains name then { marked with missing := w.missing ++ [name] }
        else { marked with external := w.external ++ [name] }

/-- Deals with the name at the front of the queue. -/
def next (w : Worklist) : Worklist :=
  match w.queue with
  | [] => w
  | name :: rest =>
      let w := { w with queue := rest }
      if w.markers.isVisited name then w else w.visit c externals roots name

/-- An unvisited name is extracted with what its declarations extend. -/
theorem mentioned_of_not_visited {markers : Markers} {name : String}
    (fresh : markers.isVisited name = false) :
    mentioned c markers name =
      (c.table.toList.filter (·.name = name)).flatMap (·.decl.references) := by
  rw [mentioned, Table.named_eq, List.flatMap_def, List.flatMap_def]
  apply congrArg List.flatten
  apply List.map_congr_left
  intro e member
  have same : e.decl.name = name := of_decide_eq_true (List.mem_filter.mp member).2
  rw [TypeDecl.references, TypeDecl.mentionsUnder, same, fresh]

/-- The references of a name that is visited for the first time are no longer pending. -/
theorem length_references_add_pendingReferences {markers : Markers} {name : String}
    (fresh : markers.isVisited name = false) (entries : List TableEntry) :
    ((entries.filter (·.name = name)).flatMap (·.decl.references)).length +
        pendingReferences (markers.markVisited name) entries =
      pendingReferences markers entries := by
  induction entries with
  | nil => rfl
  | cons e rest ih =>
      simp only [pendingReferences]
      by_cases same : e.name = name
      · have marked := (markers.isVisited_markVisited name e.name).mpr (.inl same)
        simp only [same, decide_true, List.filter_cons_of_pos, List.flatMap_cons,
          List.length_append, ← ih]
        rw [same] at marked
        simp only [marked, fresh, if_true, Bool.false_eq_true, if_false]
        omega
      · have unchanged : (markers.markVisited name).isVisited e.name =
            markers.isVisited e.name := by
          rw [Bool.eq_iff_iff, Markers.isVisited_markVisited]
          simp [same]
        simp only [same, decide_false, Bool.false_eq_true, not_false_eq_true,
          List.filter_cons_of_neg, unchanged, ← ih]
        omega

/-- What is left to do: the names in the queue, and the references that may still join it. -/
def remaining (w : Worklist) : Nat :=
  w.queue.length + pendingReferences w.markers c.table.toList

theorem remaining_visit_le {w : Worklist} {name : String}
    (fresh : w.markers.isVisited name = false) :
    (w.visit c externals roots name).remaining c ≤ w.remaining c := by
  have spent := length_references_add_pendingReferences fresh c.table.toList
  have filtered := List.length_filter_le
    (!(w.markers.markVisited name).isVisited ·) (mentioned c w.markers name)
  rw [mentioned_of_not_visited c fresh] at filtered
  simp only [remaining, visit]
  split
  · simp only
    omega
  · split
    · simp only [List.length_append, mentioned_of_not_visited c fresh]
      omega
    · split
      · simp only
        omega
      · split <;> simp only <;> omega

theorem remaining_next_lt {w : Worklist} (busy : w.queue ≠ []) :
    (w.next c externals roots).remaining c < w.remaining c := by
  obtain ⟨queue, markers, included, external, forwarded, missing⟩ := w
  cases queue with
  | nil => contradiction
  | cons name rest =>
      have popped : ∀ w : Worklist, w.queue = rest → w.markers = markers →
          w.remaining c < (rest.length + 1) + pendingReferences markers c.table.toList := by
        intro w hq hm
        simp only [remaining, hq, hm]
        omega
      simp only [next]
      split
      · exact popped _ rfl rfl
      · next fresh =>
          rw [Bool.not_eq_true] at fresh
          exact Nat.lt_of_le_of_lt (remaining_visit_le c externals roots fresh)
            (popped _ rfl rfl)

/-- Goes on until the queue is empty. -/
def run (w : Worklist) : Worklist :=
  if w.queue = [] then w else run (w.next c externals roots)
termination_by w.remaining c
decreasing_by exact remaining_next_lt c externals roots ‹_›

end Worklist

end TypeClosure

import Mathlib.Data.Nat.Count
import TypeClosure.Proofs.FileClosure

/-!
Files without some of their declarations. As long as what a closure lists is kept, its worklist
goes through the same names in the same order, and comes to the same closure.
-/

namespace TypeClosure

variable {keep : Nat → Bool}

/-- The position of a kept declaration among those that are kept. -/
def rank (keep : Nat → Bool) (position : Nat) : Nat := Nat.count (keep · = true) position

/-- What is kept of a list, by position. -/
def kept {α : Type} (keep : Nat → Bool) (l : List α) : List α :=
  (l.zipIdx.filter (keep ·.2)).map Prod.fst

theorem rank_inj {position other : Nat} (here : keep position = true)
    (there : keep other = true) : rank keep position = rank keep other ↔ position = other :=
  ⟨Nat.count_injective here there, congrArg _⟩

theorem rank_lt_rank {position other : Nat} (here : keep position = true) :
    rank keep position < rank keep other ↔ position < other := by
  constructor
  · intro less
    by_contra notLess
    exact Nat.not_lt_of_le (Nat.count_monotone _ (Nat.le_of_not_lt notLess)) less
  · exact Nat.count_strict_mono here

theorem zipIdx_kept_from {α : Type} (keep : Nat → Bool) (l : List α) (start : Nat) :
    (((l.zipIdx start).filter (keep ·.2)).map Prod.fst).zipIdx (rank keep start) =
      ((l.zipIdx start).filter (keep ·.2)).map fun (a, position) => (a, rank keep position) := by
  induction l generalizing start with
  | nil => rfl
  | cons a rest ih =>
      have next : rank keep (start + 1) = rank keep start + if keep start then 1 else 0 :=
        Nat.count_succ _ _
      cases here : keep start with
      | true =>
          simp only [here, if_true] at next
          simp [List.zipIdx_cons, here, ← ih, next]
      | false =>
          simp only [here, Bool.false_eq_true, if_false] at next
          simp [List.zipIdx_cons, here, ← ih, next]

theorem zipIdx_kept {α : Type} (keep : Nat → Bool) (l : List α) :
    (kept keep l).zipIdx =
      (l.zipIdx.filter (keep ·.2)).map fun (a, position) => (a, rank keep position) := by
  have start : rank keep 0 = 0 := Nat.count_zero _
  rw [kept, ← zipIdx_kept_from, start]

/-! ### Tables -/

def Table.ofList (entries : List TableEntry) : Table := entries.foldl Table.insert .empty

theorem toList_foldl_insert (entries : List TableEntry) (table : Table) :
    (entries.foldl Table.insert table).toList = table.toList ++ entries := by
  induction entries generalizing table with
  | nil => simp
  | cons e rest ih => simp [ih]

@[simp] theorem toList_ofList (entries : List TableEntry) :
    (Table.ofList entries).toList = entries := by
  simp [Table.ofList, toList_foldl_insert]

/-- The contents of a file with some of its declarations only. -/
def Contents.restrict (c : Contents) (keep : Nat → Bool) : Contents :=
  { c with table := .ofList (kept keep c.table.toList) }

namespace Contents

variable {c : Contents} {externals : List Glob.Pattern} {roots : List String} {name : String}

theorem located_restrict : (c.restrict keep).table.located name =
    ((c.table.located name).filter (keep ·.1)).map fun (position, e) =>
      (rank keep position, e) := by
  rw [Table.located_eq, Table.located_eq, restrict, toList_ofList, zipIdx_kept]
  simp only [List.filter_map, List.filter_filter, List.map_map]
  congr 1
  apply List.filter_congr
  intro place _
  exact Bool.and_comm _ _

theorem get?_restrict {position : Nat} (here : keep position = true) :
    (c.restrict keep).table.get? (rank keep position) = c.table.get? position := by
  apply Option.ext
  intro e
  rw [Table.get?_eq, Table.get?_eq, ← List.mk_mem_zipIdx_iff_getElem?,
    ← List.mk_mem_zipIdx_iff_getElem?, restrict, toList_ofList, zipIdx_kept, List.mem_map]
  constructor
  · intro found
    obtain ⟨place, member, same⟩ := found
    obtain ⟨member, there⟩ := List.mem_filter.mp member
    have ⟨rfl, ranked⟩ := Prod.mk.inj same
    rw [← (rank_inj there here).mp ranked]
    exact member
  · intro member
    exact ⟨(e, position), by simpa [here] using member, rfl⟩

theorem located_restrict_of_kept (here : ∀ entry ∈ c.table.located name, keep entry.1 = true) :
    (c.restrict keep).table.located name =
      (c.table.located name).map fun (position, e) => (rank keep position, e) := by
  rw [located_restrict, List.filter_eq_self.mpr here]

theorem standing_restrict
    (here : c.standing externals roots name = .declared →
      ∀ entry ∈ c.table.located name, keep entry.1 = true) :
    (c.restrict keep).standing externals roots name = c.standing externals roots name := by
  by_cases external : isExternal externals name = true
  · simp [standing, external]
  · rw [Bool.not_eq_true] at external
    by_cases undeclared : c.table.positions name = []
    · have gone : (c.restrict keep).table.positions name = [] := by
        rw [Table.positions_eq_nil] at undeclared ⊢
        intro e member
        rw [restrict, toList_ofList] at member
        obtain ⟨place, inside, rfl⟩ := List.mem_map.mp member
        exact undeclared _ (List.fst_mem_of_mem_zipIdx (List.mem_filter.mp inside).1)
      simp only [standing, external, undeclared, gone]
      rfl
    · have declared : c.standing externals roots name = .declared := by
        simp [standing, external, undeclared]
      obtain ⟨position, member⟩ := List.exists_mem_of_ne_nil _ undeclared
      obtain ⟨e, found, same⟩ := Table.mem_positions.mp member
      have there := here declared (position, e) (Table.mem_located.mpr ⟨found, same⟩)
      have found' : (c.restrict keep).table.get? (rank keep position) = some e := by
        rw [get?_restrict there, found]
      have left : (c.restrict keep).table.positions name ≠ [] :=
        List.ne_nil_of_mem (Table.mem_positions.mpr ⟨e, found', same⟩)
      simp [standing, external, undeclared, left]

end Contents

/-! ### Worklists -/

theorem insertPosition_rank {position : Nat} {ps : List Nat} (here : keep position = true)
    (there : ∀ p ∈ ps, keep p = true) :
    insertPosition (rank keep position) (ps.map (rank keep)) =
      (insertPosition position ps).map (rank keep) := by
  induction ps with
  | nil => rfl
  | cons p ps ih =>
      rw [List.forall_mem_cons] at there
      simp only [List.map_cons, insertPosition, rank_lt_rank here, rank_inj here there.1,
        ih there.2]
      split
      · rfl
      · split
        · rfl
        · rfl

theorem insertAll_rank {entries : List (Nat × TableEntry)} {ps : List Nat}
    (here : ∀ entry ∈ entries, keep entry.1 = true) (there : ∀ p ∈ ps, keep p = true) :
    (entries.map fun (position, e) => (rank keep position, e)).foldl
        (fun ps e => insertPosition e.1 ps) (ps.map (rank keep)) =
      (entries.foldl (fun ps e => insertPosition e.1 ps) ps).map (rank keep) := by
  induction entries generalizing ps with
  | nil => rfl
  | cons entry rest ih =>
      rw [List.forall_mem_cons] at here
      simp only [List.map_cons, List.foldl_cons, insertPosition_rank here.1 there]
      apply ih here.2
      intro p member
      cases mem_insertPosition.mp member with
      | inl same => exact same ▸ here.1
      | inr old => exact there p old

namespace Worklist

variable {c : Contents} {externals : List Glob.Pattern} {roots : List String} {w : Worklist}
  {name : String}

/-- A worklist with the positions among the kept declarations. -/
def renumber (keep : Nat → Bool) (w : Worklist) : Worklist :=
  { w with included := w.included.map (rank keep) }

theorem included_subset_visit : w.included ⊆ (w.visit c externals roots name).included := by
  intro position member
  rw [visit_eq_settle]
  cases c.standing externals roots name with
  | declared => exact mem_insertAll.mpr (.inl member)
  | external => exact member
  | forwarded _ => exact member
  | missing => exact member

theorem included_subset_next : w.included ⊆ (w.next c externals roots).included := by
  cases queued : w.queue with
  | nil => simp [next, queued]
  | cons name rest =>
      cases visited : w.markers.isVisited name with
      | true => simp [next, queued, visited]
      | false =>
          intro position member
          simp only [next, queued, visited, Bool.false_eq_true, if_false]
          exact included_subset_visit (w := { w with queue := rest }) member

theorem included_subset_run (w : Worklist) :
    w.included ⊆ (w.run c externals roots).included := by
  fun_induction run c externals roots w with
  | case1 w done => exact fun _ member => member
  | case2 w busy ih => exact fun _ member => ih (included_subset_next member)

theorem mentioned_restrict {markers : Markers}
    (here : ∀ entry ∈ c.table.located name, keep entry.1 = true) :
    mentioned (c.restrict keep) markers name = mentioned c markers name := by
  rw [mentioned, mentioned, Table.named, Table.named, Contents.located_restrict_of_kept here,
    List.map_map]
  rfl

theorem visit_renumber
    (here : ∀ position ∈ (w.visit c externals roots name).included, keep position = true) :
    (w.renumber keep).visit (c.restrict keep) externals roots name =
      (w.visit c externals roots name).renumber keep := by
  have old : ∀ p ∈ w.included, keep p = true := by
    intro p member
    exact here p (included_subset_visit member)
  rw [visit_eq_settle] at here
  have declared : c.standing externals roots name = .declared →
      ∀ entry ∈ c.table.located name, keep entry.1 = true := by
    intro standing entry member
    rw [standing] at here
    exact here entry.1 (mem_insertAll.mpr (.inr ⟨entry.2, member⟩))
  rw [visit_eq_settle, visit_eq_settle, Contents.standing_restrict declared]
  cases standing : c.standing externals roots name with
  | external => rfl
  | forwarded _ => rfl
  | missing => rfl
  | declared =>
      have there := declared standing
      simp only [settle, renumber, mentioned_restrict there,
        Contents.located_restrict_of_kept there, insertAll_rank there old]

theorem next_renumber
    (here : ∀ position ∈ (w.next c externals roots).included, keep position = true) :
    (w.renumber keep).next (c.restrict keep) externals roots =
      (w.next c externals roots).renumber keep := by
  cases queued : w.queue with
  | nil => simp [next, renumber, queued]
  | cons name rest =>
      cases visited : w.markers.isVisited name with
      | true => simp [next, renumber, queued, visited]
      | false =>
          simp only [next, queued, visited, Bool.false_eq_true, if_false] at here
          have visit := visit_renumber here
          simpa [next, renumber, queued, visited] using visit

/-- The worklists of a file and of what is kept of it go through the same steps. -/
theorem run_renumber (w : Worklist)
    (here : ∀ position ∈ (w.run c externals roots).included, keep position = true) :
    (w.renumber keep).run (c.restrict keep) externals roots =
      (w.run c externals roots).renumber keep := by
  -- What is listed in the end has been kept at every step before it.
  fun_induction run c externals roots w with
  | case1 w done =>
      rw [run, if_pos (show (w.renumber keep).queue = [] from done)]
  | case2 w busy ih =>
      rw [run, if_neg (show (w.renumber keep).queue ≠ [] from busy), next_renumber, ih here]
      intro position member
      exact here position (included_subset_run _ member)

end Worklist

/-! ### Closures -/

/-- The closure of some roots in a file with some contents. -/
def Contents.closure (c : Contents) (file : String) (externals : List Glob.Pattern)
    (requested : List String) : Closure :=
  let roots := c.rootsFor requested
  let w := c.worklist externals roots
  { file
    roots
    declarations := (w.included.filterMap c.table.get?).map (entry w.markers)
    external := w.external
    reexports := c.neededReexports w.forwarded
    missingRoots := w.missing }

theorem Source.closure_eq (s : Source) (externals : List Glob.Pattern) (requested : List String) :
    s.closure externals requested = s.contents.closure s.path externals requested := rfl

theorem Contents.closure_restrict {c : Contents} {file : String} {externals : List Glob.Pattern}
    {requested : List String} (nonempty : requested ≠ [])
    (here : ∀ position ∈ (c.worklist externals (c.rootsFor requested)).included,
      keep position = true) :
    (c.restrict keep).closure file externals requested = c.closure file externals requested := by
  have roots : (c.restrict keep).rootsFor requested = c.rootsFor requested := by
    simp [rootsFor, nonempty]
  have ran : (c.restrict keep).worklist externals (c.rootsFor requested) =
      (c.worklist externals (c.rootsFor requested)).renumber keep :=
    Worklist.run_renumber _ here
  have listed : ((c.worklist externals (c.rootsFor requested)).included.map (rank keep)).filterMap
        (c.restrict keep).table.get? =
      (c.worklist externals (c.rootsFor requested)).included.filterMap c.table.get? := by
    rw [List.filterMap_map]
    apply List.filterMap_congr
    intro position member
    exact get?_restrict (here position member)
  simp only [closure, roots, ran, Worklist.renumber, listed]
  rfl

/-- What a closure lists stands on its own: without any of the other declarations, the file has the
same closure. -/
theorem Source.closure_stands_alone (s : Source) (externals : List Glob.Pattern)
    (requested : List String) (nonempty : requested ≠ []) :
    (∀ keep : Nat → Bool,
      (∀ position, s.Lists (s.closure externals requested) position → keep position = true) →
        (s.contents.restrict keep).closure s.path externals requested =
          s.closure externals requested) ∧
    (s.contents.restrict fun position =>
        s.Lists (s.closure externals requested) position).closure s.path externals requested =
      s.closure externals requested := by
  have removed : ∀ keep : Nat → Bool,
      (∀ position, s.Lists (s.closure externals requested) position → keep position = true) →
        (s.contents.restrict keep).closure s.path externals requested =
          s.closure externals requested := by
    intro keep here
    rw [closure_eq]
    apply Contents.closure_restrict nonempty
    intro position member
    exact here position (lists_iff_mem_included.mpr member)
  refine ⟨removed, removed _ ?_⟩
  intro position listed
  exact decide_eq_true listed

/-- A menu among declarations that it does not need. -/
def menuText : String :=
  "interface Other {} interface Menu { item: Item; tax: HiddenTax } " ++
    "interface HiddenTax { rate: Rate } interface Item {} interface Rate {}"

def menuExternals : List Glob.Pattern :=
  [⟨"Hid*", [.literal 'H', .literal 'i', .literal 'd', .anyText]⟩]

theorem Source.closure_stands_alone_menu :
    ∃ s ∈ Source.read? "menu.ts" menuText,
      ((s.contents.restrict fun position =>
          s.Lists (s.closure menuExternals ["Menu"]) position).table.toList.map
        TableEntry.name = ["Menu", "Item"]) ∧
      (s.contents.restrict fun position =>
          s.Lists (s.closure menuExternals ["Menu"]) position).closure s.path menuExternals
        ["Menu"] = s.closure menuExternals ["Menu"] := by
  obtain ⟨s, read, names⟩ : ∃ s ∈ Source.read? "menu.ts" menuText,
      (s.contents.restrict fun position =>
          s.Lists (s.closure menuExternals ["Menu"]) position).table.toList.map
        TableEntry.name = ["Menu", "Item"] := by
    decide +kernel
  have alone := s.closure_stands_alone menuExternals ["Menu"] (by decide)
  exact ⟨s, read, names, alone.2⟩

end TypeClosure

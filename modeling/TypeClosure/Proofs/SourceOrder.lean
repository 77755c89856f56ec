import TypeClosure.Proofs.Combination
import TypeClosure.Proofs.Grammar.DeclarationOrder
import TypeClosure.Proofs.LocalTypes

/-!
In which order declarations are collected: that of the text, except that what stands in an accessor
may come in front of what is written before it.
-/

namespace TypeClosure

/-! ### Lines -/

namespace Text

theorem lineEnds_pos {c : Char} (ends : (c == '\n' || c == '\r') = true) (rest : List Char) :
    0 < lineEnds (c :: rest) := by
  unfold lineEnds
  split
  · contradiction
  · exact Nat.succ_pos _
  · next same =>
      cases same
      rw [if_pos ends]
      exact Nat.succ_pos _

theorem lineEnds_le_append (text rest : List Char) : lineEnds text ≤ lineEnds (text ++ rest) := by
  fun_induction lineEnds text with
  | case1 => exact Nat.zero_le _
  | case2 text ih => exact Nat.succ_le_succ ih
  | case3 c text alone ends ih =>
      cases text with
      -- The carriage return at the end may have its line feed in what follows.
      | nil => exact lineEnds_pos ends rest
      | cons d text =>
          have more : lineEnds (c :: (d :: text ++ rest)) = lineEnds (d :: text ++ rest) + 1 := by
            rw [lineEnds, if_pos ends]
            exact fun _ same other => alone text same (by cases other; rfl)
          exact Nat.le_trans (Nat.succ_le_succ ih) (Nat.le_of_eq more.symm)
  | case4 c text alone ends ih =>
      rw [List.cons_append, lineEnds, if_neg ends]
      · exact ih
      · rintro _ rfl -
        exact ends rfl

/-- A place further on stands on the same line or on a later one. -/
theorem lineAt_mono (text : List Char) {offset later : Nat} (le : offset ≤ later) :
    lineAt text offset ≤ lineAt text later := by
  obtain ⟨n, rfl⟩ := Nat.exists_eq_add_of_le le
  rw [lineAt, lineAt, List.take_add]
  exact Nat.succ_le_succ (lineEnds_le_append _ _)

end Text

/-! ### Spots of occurrences -/

def Enclosure.isCode : Enclosure → Bool
  | .code _ => true
  | .module | .declaration => false

/-- Where a declaration starts, and whether no local code encloses it. -/
def Occurrence.spot (o : Occurrence) : Spot := ⟨o.decl.offset, !o.around.any Enclosure.isCode⟩

theorem keptInside_code : KeptInside fun around => around.any Enclosure.isCode = true where
  module := fun out => by simp [out]
  code := fun _ out => by simp [out]
  declaration := fun _ out => by simp [out]

/-- Inside local code there are spots of local code. -/
theorem map_spot_of_code {occurrences : List Occurrence}
    (code : ∀ o ∈ occurrences, o.around.any Enclosure.isCode = true) :
    occurrences.map Occurrence.spot = Spot.inside (occurrences.map (·.decl.offset)) := by
  rw [Spot.inside, List.map_map]
  refine List.map_congr_left fun o member => ?_
  simp [Occurrence.spot, code o member]

theorem map_spot_occurrencesOfCodes {around : List Enclosure} (codes : List LocalCode) :
    (LocalCode.occurrencesOfAll around codes).map Occurrence.spot =
      Spot.inside (LocalCode.offsetsOfAll codes) := by
  rw [map_spot_of_code, LocalCode.map_offset_occurrencesOfAll]
  exact keptInside_code.occurrencesOfCodes codes fun scope => by simp [Enclosure.isCode]

mutual
theorem Node.map_spot_occurrences {around : List Enclosure}
    (outside : around.any Enclosure.isCode = false) (n : Node) :
    (n.occurrences around).map Occurrence.spot = n.spots := by
  have here (d : TypeDecl) : Occurrence.spot ⟨around, d⟩ = ⟨d.offset, true⟩ := by
    simp [Occurrence.spot, outside]
  cases n with
  | type d codes => exact congrArg₂ (· :: ·) (here d) (map_spot_occurrencesOfCodes codes)
  | exportedDefault d codes =>
      exact congrArg₂ (· :: ·) (here d) (map_spot_occurrencesOfCodes codes)
  | value parts => exact Node.map_spot_occurrencesOfAll outside parts
  | statement parts => exact Node.map_spot_occurrencesOfAll outside parts
  | module items =>
      exact Node.map_spot_occurrencesOfAll (by simp [outside, Enclosure.isCode]) items
  | code c =>
      rw [Node.occurrences, map_spot_of_code, LocalCode.map_offset_occurrences, Node.spots]
      exact keptInside_code.occurrencesOfCode c fun scope => by simp [Enclosure.isCode]
  | exported n => exact n.map_spot_occurrences outside
  | exportList _ => rfl
  | reexport _ _ => rfl

theorem Node.map_spot_occurrencesOfAll {around : List Enclosure}
    (outside : around.any Enclosure.isCode = false) (ns : List Node) :
    (Node.occurrencesOfAll around ns).map Occurrence.spot = Node.spotsOfAll ns := by
  cases ns with
  | nil => rfl
  | cons n ns =>
      rw [Node.occurrencesOfAll, List.map_append, n.map_spot_occurrences outside,
        Node.map_spot_occurrencesOfAll outside ns, Node.spotsOfAll]
end

theorem sublist_kept {α : Type} (keep : Nat → Bool) (l : List α) : (kept keep l).Sublist l := by
  have inside : (kept keep l).Sublist (l.zipIdx.map Prod.fst) := List.filter_sublist.map _
  rwa [List.zipIdx_map_fst] at inside

namespace Source

variable {path text : String} {s : Source}

/-- A declaration that no local code encloses is written before all that are visited later. -/
theorem pairwise_occurrences (read : Source.read? path text = some s) :
    s.occurrences.Pairwise fun o later =>
      o.around.any Enclosure.isCode = false → o.decl.offset < later.decl.offset := by
  have ordered := inOrder_outline (outline_of_read read)
  have same : s.occurrences.map Occurrence.spot = Node.spotsOfAll s.items :=
    Node.map_spot_occurrencesOfAll rfl s.items
  rw [← same, InOrder, List.pairwise_map] at ordered
  refine ordered.imp fun precedes outside => precedes ?_
  simp [Occurrence.spot, outside]

/-- A collected declaration that no accessor encloses is written before all that are collected
later. -/
theorem pairwise_collected (read : Source.read? path text = some s) :
    s.collected.Pairwise fun o later =>
      Enclosure.code .accessor ∉ o.around → o.decl.offset < later.decl.offset := by
  refine List.Pairwise.imp_of_mem ?_ ((pairwise_occurrences read).sublist List.filter_sublist)
  intro o later member _ precedes outside
  refine precedes (List.any_eq_false.mpr fun e around => ?_)
  obtain rfl | rfl := Occurrence.isCollected_iff.mp (List.mem_filter.mp member).2 e around
  · exact Bool.false_ne_true
  · exact absurd around outside

/-- Where no accessor encloses any of some collected declarations, their lines never decrease. -/
theorem pairwise_line {part : List Occurrence} (read : Source.read? path text = some s)
    (sublist : part.Sublist s.collected)
    (outside : ∀ o ∈ part, Enclosure.code .accessor ∉ o.around) :
    (part.map fun o => (o.entry s.text).line).Pairwise (· ≤ ·) := by
  rw [List.pairwise_map]
  refine List.Pairwise.imp_of_mem ?_ ((pairwise_collected read).sublist sublist)
  intro o later member _ precedes
  exact Text.lineAt_mono s.text (Nat.le_of_lt (precedes (outside o member)))

/-- A closure lists a part of what is collected, in the same order. -/
theorem exists_sublist_collected (externals : List Glob.Pattern) (requested : List String) :
    ∃ part : List Occurrence, part.Sublist s.collected ∧
      (s.closure externals requested).declarations =
        part.map fun o => Contents.entry s.contents.markers (o.entry s.text) := by
  let listed := fun position => decide (s.Lists (s.closure externals requested) position)
  have inside := sublist_kept listed s.contents.table.toList
  rw [toList_table_contents] at inside
  obtain ⟨part, sublist, same⟩ := List.sublist_map_iff.mp inside
  refine ⟨part, sublist, ?_⟩
  rw [declarations_eq_kept, toList_table_contents, same, List.map_map]
  rfl

/-- Declarations are collected in the order of the text: one that no accessor encloses is written
before all that are collected later. Where accessors enclose none, the places of the declarations
increase from each to the next, and the lines never decrease, in the listing of the file and in
every closure. -/
theorem collected_in_order (read : Source.read? path text = some s) :
    s.collected.Pairwise (fun o later =>
      Enclosure.code .accessor ∉ o.around → o.decl.offset < later.decl.offset) ∧
    ((∀ o ∈ s.collected, Enclosure.code .accessor ∉ o.around) →
      (s.contents.table.toList.map (·.decl.offset)).Pairwise (· < ·) ∧
      (s.listing.declarations.map (·.line)).Pairwise (· ≤ ·)) ∧
    ∀ externals requested, ∃ part : List Occurrence, part.Sublist s.collected ∧
      (s.closure externals requested).declarations =
        part.map (fun o => Contents.entry s.contents.markers (o.entry s.text)) ∧
      ((∀ o ∈ part, Enclosure.code .accessor ∉ o.around) →
        ((s.closure externals requested).declarations.map (·.line)).Pairwise (· ≤ ·)) := by
  refine ⟨pairwise_collected read, fun outside => ⟨?_, ?_⟩, fun externals requested => ?_⟩
  · rw [toList_table_contents, List.map_map, List.pairwise_map]
    exact List.Pairwise.imp_of_mem (fun member _ precedes => precedes (outside _ member))
      (pairwise_collected read)
  · have lines := pairwise_line read (.refl _) outside
    rwa [listing, toList_table_contents, List.map_map, List.map_map]
  · obtain ⟨part, sublist, same⟩ := exists_sublist_collected (s := s) externals requested
    refine ⟨part, sublist, same, fun outside => ?_⟩
    have lines := pairwise_line read sublist outside
    rwa [same, List.map_map]

theorem collected_in_order_nested :
    ∃ s ∈ Source.read? "a.ts"
        "namespace N \x7b\n export interface A \x7b b: B \x7d\n\x7d\ndo \x7b\n interface B \x7b\x7d
\x7d while (f(() => \x7b interface L \x7b\x7d \x7d));\nif (x) \x7b enum C \x7b y \x7d \x7d
export type D = A;",
      s.collected.map (·.decl.name) = ["A", "B", "C", "D"] ∧
      (∀ o ∈ s.collected, Enclosure.code .accessor ∉ o.around) ∧
      (s.contents.table.toList.map (·.decl.offset)).Pairwise (· < ·) := by
  obtain ⟨s, read, names, outside⟩ : ∃ s ∈ Source.read? "a.ts"
        "namespace N \x7b\n export interface A \x7b b: B \x7d\n\x7d\ndo \x7b\n interface B \x7b\x7d
\x7d while (f(() => \x7b interface L \x7b\x7d \x7d));\nif (x) \x7b enum C \x7b y \x7d \x7d
export type D = A;",
      s.collected.map (·.decl.name) = ["A", "B", "C", "D"] ∧
      (∀ o ∈ s.collected, Enclosure.code .accessor ∉ o.around) := by
    decide +kernel
  exact ⟨s, read, names, outside, ((collected_in_order read).2.1 outside).1⟩

/-- The condition of a loop is visited in front of its body, so that a declaration in an accessor
of the condition is collected before the declarations of the body. -/
theorem collected_out_of_order :
    ∃ s ∈ Source.read? "a.ts"
        "do \x7b\n interface A \x7b\x7d\n\x7d while (\x7b get x() \x7b\n interface B \x7b\x7d
 return 1; \x7d \x7d);",
      s.listing.declarations.map (fun d => (d.name, d.line)) = [("B", 4), ("A", 2)] ∧
      ((s.closure [] ["A", "B"]).declarations.map (fun d => (d.name, d.line))) =
        [("B", 4), ("A", 2)] ∧
      ¬(s.contents.table.toList.map (·.decl.offset)).Pairwise (· < ·) := by
  decide +kernel

end Source

end TypeClosure

import Mathlib.Data.Finset.Card
import TypeClosure.Proofs.Relisting
import TypeClosure.Proofs.TreeReport

/-!
What the last line of a report counts. It counts the nodes of a tree and what they list; a file has
a node for each time that it is asked for names, so it may count more than once.
-/

namespace TypeClosure.FileTree

variable {t : FileTree} {options : ClosureOptions} {path : String} {requested : List String}
  {tree : ClosureTree}

/-- The declarations that a closure lists, each by its file and its position in the table. -/
def listedBy (t : FileTree) (c : Closure) : List (String × Nat) :=
  match t.readSource c.file with
  | .ok s => (s.contents.table.toList.zipIdx.filter fun place => s.Lists c place.2).map
      fun place => (t.canonical c.file, place.2)
  | .error _ => []

/-- The files that the nodes of a tree are of. -/
def filesOf (t : FileTree) (tree : ClosureTree) : Finset String :=
  (tree.closures.map fun c => t.canonical c.file).toFinset

/-- The declarations that the nodes of a tree list. -/
def declarationsOf (t : FileTree) (tree : ClosureTree) : Finset (String × Nat) :=
  (tree.closures.flatMap t.listedBy).toFinset

theorem listedBy_eq_of_read {c : Closure} {s : Source} (read : t.readSource c.file = .ok s) :
    t.listedBy c = ((s.contents.table.toList.zipIdx.filter fun place => s.Lists c place.2).map
      Prod.snd).map (Prod.mk (t.canonical c.file)) := by
  rw [listedBy, read, List.map_map]
  rfl

theorem nodup_listedBy (t : FileTree) (c : Closure) : (t.listedBy c).Nodup := by
  cases read : t.readSource c.file with
  | error f => simp [listedBy, read]
  | ok s =>
      have positions : (s.contents.table.toList.zipIdx.map Prod.snd).Nodup := by
        rw [List.zipIdx_map_snd]
        exact List.nodup_range'
      rw [listedBy_eq_of_read read]
      exact (positions.sublist (List.filter_sublist.map _)).map (Prod.mk_right_injective _)

/-- Each entry of a closure stands for one declaration. -/
theorem length_listedBy (follows : options.followReexports = true)
    (result : (t.closure options path requested).1 = .ok tree) {c : Closure}
    (member : c ∈ tree.closures) : (t.listedBy c).length = c.declarations.length := by
  obtain ⟨s, roots, read, eq⟩ := source_of_mem_closures follows result member
  have listed : c.declarations = (kept (fun position => s.Lists c position)
      s.contents.table.toList).map (Contents.entry s.contents.markers) := by
    rw [eq]
    exact Source.declarations_eq_kept
  rw [listedBy_eq_of_read read, listed, kept]
  simp only [List.length_map]

theorem card_toFinset_eq_length_iff {α : Type} [DecidableEq α] {l : List α} :
    l.toFinset.card = l.length ↔ l.Nodup :=
  Multiset.toFinset_card_eq_card_iff_nodup (m := (l : Multiset α))

/-- As many files as nodes are counted if and only if no two nodes are of one file. -/
theorem card_filesOf (t : FileTree) (tree : ClosureTree) :
    (t.filesOf tree).card ≤ tree.closures.length ∧
      ((t.filesOf tree).card = tree.closures.length ↔
        tree.closures.Pairwise fun first second =>
          t.canonical first.file ≠ t.canonical second.file) := by
  rw [filesOf, ← List.length_map (fun c => t.canonical c.file), card_toFinset_eq_length_iff,
    List.Nodup, List.pairwise_map]
  exact ⟨List.toFinset_card_le _, Iff.rfl⟩

/-- As many declarations as entries are counted if and only if no two nodes list the same one. -/
theorem card_declarationsOf (follows : options.followReexports = true)
    (result : (t.closure options path requested).1 = .ok tree) :
    (t.declarationsOf tree).card ≤ (tree.closures.flatMap Closure.declarations).length ∧
      ((t.declarationsOf tree).card = (tree.closures.flatMap Closure.declarations).length ↔
        tree.closures.Pairwise fun first second =>
          (t.listedBy first).Disjoint (t.listedBy second)) := by
  have entries : (tree.closures.flatMap Closure.declarations).length =
      (tree.closures.flatMap t.listedBy).length := by
    rw [List.length_flatMap, List.length_flatMap]
    apply congrArg
    apply List.map_congr_left
    intro c member
    exact (length_listedBy follows result member).symm
  rw [entries, declarationsOf, card_toFinset_eq_length_iff, List.nodup_flatMap]
  exact ⟨List.toFinset_card_le _, and_iff_right fun c _ => t.nodup_listedBy c⟩

/-- The last line counts the nodes of a tree as its files and what they list as its declarations.
The nodes of one file are asked for different names. There are as many files as the line says if no
two nodes are of one file, else fewer; and as many declarations as it says if no two nodes list the
same one, else fewer. -/
theorem summary_counts (follows : options.followReexports = true)
    (result : (t.closure options path requested).1 = .ok tree)
    (complete : tree.hasMissingRoots = false) :
    ∃ declarations files, Report.summary tree = Report.collectedLine declarations files ∧
      (files = tree.nodes.length ∧
        (tree.closures.Pairwise fun first second =>
          t.canonical first.file = t.canonical second.file → first.roots.Disjoint second.roots) ∧
        (t.filesOf tree).card ≤ files ∧
        ((t.filesOf tree).card = files ↔ tree.closures.Pairwise fun first second =>
          t.canonical first.file ≠ t.canonical second.file)) ∧
      declarations = (tree.closures.flatMap Closure.declarations).length ∧
      (t.declarationsOf tree).card ≤ declarations ∧
      ((t.declarationsOf tree).card = declarations ↔ tree.closures.Pairwise fun first second =>
        (t.listedBy first).Disjoint (t.listedBy second)) := by
  refine ⟨(tree.closures.flatMap Closure.declarations).length, tree.closures.length, ?_,
    ⟨?_, ?_, card_filesOf t tree⟩, rfl, card_declarationsOf follows result⟩
  · rw [Report.summary_eq, complete]
    rfl
  · rw [← ClosureTree.map_own_nodes, List.length_map]
  · obtain ⟨after, fresh⟩ := fresh_closure result
    refine fresh.later.imp ?_
    intro first second unmarked same name asked again
    exact unmarked _ (mem_demands.mpr ⟨same.symm, again⟩) (mem_marks.mpr ⟨rfl, .inl asked⟩)

/-- Two parts that take different declarations from the same file. -/
def diamond : FileTree where
  current := ["w"]
  entries := [(["w"], .directory),
    (["w", "index.ts"], .file (some ("export { Left } from './left'; " ++
      "export { Right } from './right'; export interface Root { l: Left; r: Right }"))),
    (["w", "left.ts"], .file (some
      "export { Shared } from './shared'; export interface Left { s: Shared }")),
    (["w", "right.ts"], .file (some
      "export { Other } from './shared'; export interface Right { o: Other }")),
    (["w", "shared.ts"], .file (some "export interface Shared {} export interface Other {}"))]

theorem closure_diamond :
    ∃ tree, (diamond.closure { followReexports := true } "index.ts" ["Root"]).1 = .ok tree ∧
      tree.hasMissingRoots = false ∧ Report.summary tree = Report.collectedLine 5 5 ∧
      (diamond.filesOf tree).card = 4 ∧ (diamond.declarationsOf tree).card = 5 ∧
      (¬ tree.closures.Pairwise fun first second =>
        diamond.canonical first.file ≠ diamond.canonical second.file) ∧
      tree.closures.Pairwise fun first second =>
        ∀ place ∈ diamond.listedBy first, place ∉ diamond.listedBy second := by
  decide +kernel

theorem summary_counts_diamond :
    ∃ tree, (diamond.closure { followReexports := true } "index.ts" ["Root"]).1 = .ok tree ∧
      ∃ declarations files, Report.summary tree = Report.collectedLine declarations files ∧
        (diamond.filesOf tree).card < files ∧
        (diamond.declarationsOf tree).card = declarations := by
  obtain ⟨tree, result, complete, _, _, _, repeated, apart⟩ := closure_diamond
  obtain ⟨declarations, files, line, ⟨_, _, most, each⟩, _, _, once⟩ :=
    summary_counts rfl result complete
  refine ⟨tree, result, declarations, files, line, ?_, once.mpr apart⟩
  exact lt_of_le_of_ne most fun same => repeated (each.mp same)

/-- A file with two nodes is counted twice. -/
theorem diamond_counts_a_file_twice :
    ∃ tree, (diamond.closure { followReexports := true } "index.ts" ["Root"]).1 = .ok tree ∧
      tree.hasMissingRoots = false ∧ (diamond.filesOf tree).card = 4 ∧
      (diamond.declarationsOf tree).card = 5 ∧
      Report.summary tree = Report.collectedLine 5 5 ∧
      Report.summary tree ≠
        Report.collectedLine (diamond.declarationsOf tree).card (diamond.filesOf tree).card := by
  obtain ⟨tree, result, complete, line, files, declarations, _⟩ := closure_diamond
  refine ⟨tree, result, complete, files, declarations, line, ?_⟩
  rw [line, files, declarations]
  decide

end TypeClosure.FileTree

import TypeClosure.Proofs.PublicNames

/-!
The shape of a followed tree. Each node is the closure of its file; below it stand, in the order in
which its statements first lead to them, the files of which it demands names that are new.
-/

namespace TypeClosure

/-! ### Roots -/

namespace Contents

variable {c : Contents}

theorem exportedNames_eq (c : Contents) :
    c.exportedNames =
      distinct ((c.table.toList.filter (c.markers.isExported ·.name)).map TableEntry.name) := by
  have step (entries : List TableEntry) (names : List String) :
      entries.foldl (fun names e => if c.markers.isExported e.name && !names.contains e.name then
          names ++ [e.name] else names) names =
        ((entries.filter (c.markers.isExported ·.name)).map TableEntry.name).foldl addName
          names := by
    induction entries generalizing names with
    | nil => rfl
    | cons e rest ih =>
        rw [List.foldl_cons, ih, List.filter_cons]
        cases exported : c.markers.isExported e.name with
        | false => simp
        | true =>
            have added : (if (true && !names.contains e.name) = true then names ++ [e.name]
                else names) = addName names e.name := by
              by_cases member : e.name ∈ names
              · simp [addName, member]
              · simp [addName, member]
            rw [added, if_pos rfl, List.map_cons, List.foldl_cons]
  exact step c.table.toList []

theorem nodup_rootsFor (c : Contents) (requested : List String) :
    (c.rootsFor requested).Nodup := by
  unfold rootsFor
  split
  · rw [exportedNames_eq]
    exact nodup_distinct _
  · exact nodup_distinct _

theorem rootsFor_of_nodup {names : List String} (nonempty : names ≠ []) (nodup : names.Nodup) :
    c.rootsFor names = names := by
  rw [rootsFor, if_neg (by simpa using nonempty), distinct_of_nodup nodup]

/-- The roots that stand for a request stand for themselves. -/
theorem rootsFor_rootsFor (c : Contents) (requested : List String) :
    c.rootsFor (c.rootsFor requested) = c.rootsFor requested := by
  by_cases none : c.rootsFor requested = []
  · rw [none]
    unfold rootsFor at none ⊢
    split at none
    · exact none
    · next nonempty =>
        obtain ⟨name, member⟩ := List.exists_mem_of_ne_nil requested (by simpa using nonempty)
        have found : name ∈ distinct requested := mem_distinct.mpr member
        rw [none] at found
        exact absurd found List.not_mem_nil
  · exact rootsFor_of_nodup none (c.nodup_rootsFor requested)

end Contents

theorem Source.closure_roots (s : Source) (externals : List Glob.Pattern)
    (requested : List String) :
    s.closure externals (s.closure externals requested).roots = s.closure externals requested := by
  change s.closure externals (s.contents.rootsFor requested) = s.closure externals requested
  simp only [closure, Contents.rootsFor_rootsFor]

namespace FileTree

variable {t : FileTree} {options : ClosureOptions} {path : String} {requested : List String}
  {tree : ClosureTree}

/-! ### Nodes -/

theorem forall_nodes_followTargets {holds : ClosureTree → Prop}
    {visit : String → List String → Visits → Except Failure ClosureTree × Visits}
    (visiting : ∀ path roots v tree after, visit path roots v = (.ok tree, after) →
      ∀ node ∈ tree.nodes, holds node)
    {targets : List FollowTarget} {v after : Visits} {trees : List ClosureTree}
    (run : followTargets visit targets v = (.ok trees, after)) :
    ∀ node ∈ ClosureTree.nodesOfAll trees, holds node := by
  induction targets generalizing v trees with
  | nil =>
      cases run
      simp [ClosureTree.nodesOfAll]
  | cons target rest ih =>
      cases followTargets_cons_eq_ok run with
      | inl skipped => exact ih skipped.2
      | inr followed =>
          obtain ⟨_, nested, others, middle, visited, ran, rfl⟩ := followed
          rw [ClosureTree.nodesOfAll, List.forall_mem_append]
          exact ⟨visiting _ _ _ _ _ visited, ih ran⟩

/-- What holds of a node whenever the targets of its closure have been followed holds of every node
of a tree. -/
theorem forall_nodes_followUpTo {holds : ClosureTree → Prop}
    (follows : options.followReexports = true)
    (here : ∀ n path s roots v followed after, t.readSource path = .ok s →
      followTargets (t.followUpTo options n) (t.targets options.moduleExtensions
        (s.closure options.externals roots) path) v = (.ok followed, after) →
      holds (t.nodeOf options path s roots followed))
    {n : Nat} {roots : List String} {v after : Visits}
    (run : t.followUpTo options n path roots v = (.ok tree, after)) :
    ∀ node ∈ tree.nodes, holds node := by
  induction n generalizing path roots v after tree with
  | zero => cases run
  | succ n ih =>
      obtain ⟨m, s, followed, eq, read, ran, rfl⟩ := followUpTo_eq_ok follows run
      cases eq
      rw [nodes_nodeOf, List.forall_mem_cons]
      refine ⟨here n path s roots _ followed after read ran, ?_⟩
      exact forall_nodes_followTargets (fun _ _ _ _ _ visited => ih visited) ran

/-! ### Children -/

/-- A child is the closure of its target's file for some of the names that are demanded of it. -/
structure ChildOf (t : FileTree) (child : ClosureTree) (target : FollowTarget) : Prop where
  file : t.canonical child.own.file = target.file
  nonempty : child.own.roots ≠ []
  roots : child.own.roots.Sublist target.roots

theorem own_followUpTo (follows : options.followReexports = true) {n : Nat} {roots : List String}
    {v after : Visits} (nonempty : roots ≠ []) (nodup : roots.Nodup)
    (run : t.followUpTo options n path roots v = (.ok tree, after)) :
    tree.own.file = path ∧ tree.own.roots = roots := by
  obtain ⟨m, s, followed, _, read, _, rfl⟩ := followUpTo_eq_ok follows run
  exact ⟨file_closure read _ _, Contents.rootsFor_of_nodup nonempty nodup⟩

/-- The children are those of the targets that are asked for new names. -/
theorem children_followTargets (follows : options.followReexports = true) {n : Nat}
    {targets : List FollowTarget} {v after : Visits} {trees : List ClosureTree}
    (files : ∀ target ∈ targets, target.file = t.canonical target.path)
    (nodup : ∀ target ∈ targets, target.roots.Nodup)
    (run : followTargets (t.followUpTo options n) targets v = (.ok trees, after)) :
    ∃ visited, visited.Sublist targets ∧ List.Forall₂ t.ChildOf trees visited := by
  induction targets generalizing v trees with
  | nil =>
      cases run
      exact ⟨[], .slnil, .nil⟩
  | cons target rest ih =>
      rw [List.forall_mem_cons] at files nodup
      cases followTargets_cons_eq_ok run with
      | inl skipped =>
          obtain ⟨visited, inside, children⟩ := ih files.2 nodup.2 skipped.2
          exact ⟨visited, inside.cons target, children⟩
      | inr followed =>
          obtain ⟨new, nested, others, middle, reached, ran, rfl⟩ := followed
          obtain ⟨visited, inside, children⟩ := ih files.2 nodup.2 ran
          have asked : (v.unseen target.file target.roots).Sublist target.roots :=
            List.filter_sublist
          have ⟨file, roots⟩ := own_followUpTo follows new (nodup.1.sublist asked) reached
          refine ⟨target :: visited, inside.cons_cons target, .cons ⟨?_, ?_, ?_⟩ children⟩
          · rw [file, files.1]
          · rwa [roots]
          · rwa [roots]

theorem map_file_of_children {trees : List ClosureTree} {visited : List FollowTarget}
    (children : List.Forall₂ t.ChildOf trees visited) :
    (trees.map fun child => t.canonical child.own.file) = visited.map FollowTarget.file := by
  induction children with
  | nil => rfl
  | cons child _ ih => rw [List.map_cons, List.map_cons, child.file, ih]

theorem exists_target_of_mem_children {trees : List ClosureTree} {visited : List FollowTarget}
    (children : List.Forall₂ t.ChildOf trees visited) {child : ClosureTree}
    (member : child ∈ trees) : ∃ target ∈ visited, t.ChildOf child target := by
  induction children with
  | nil => exact absurd member List.not_mem_nil
  | @cons first target _ _ here _ ih =>
      cases List.mem_cons.mp member with
      | inl same =>
          rw [same]
          exact ⟨target, List.mem_cons_self, here⟩
      | inr later =>
          obtain ⟨other, found, childOf⟩ := ih later
          exact ⟨other, List.mem_cons_of_mem _ found, childOf⟩

/-- The files below a node, each by its one spelling. -/
def childFiles (t : FileTree) (node : ClosureTree) : List String :=
  node.followed.map fun child => t.canonical child.own.file

/-- The files that the statements of a closure lead to, in the order in which they first do. -/
def filesLedTo (t : FileTree) (extensions : List String) (c : Closure) : List String :=
  distinct (c.reexports.filterMap fun r => t.moduleFile? extensions c.file r.module)

/-- Below a node stand files that its statements lead to, each for names that they take from it. -/
structure WellFollowed (t : FileTree) (extensions : List String) (node : ClosureTree) : Prop where
  files : (t.childFiles node).Sublist (t.filesLedTo extensions node.own)
  roots : ∀ child ∈ node.followed, child.own.roots ≠ [] ∧ child.own.roots.Sublist
    (t.originsOf extensions node.own node.own.file (t.canonical child.own.file))

theorem wellFollowed_nodeOf (follows : options.followReexports = true) {n : Nat} {s : Source}
    {roots : List String} {v after : Visits} {followed : List ClosureTree}
    (read : t.readSource path = .ok s)
    (run : followTargets (t.followUpTo options n) (t.targets options.moduleExtensions
      (s.closure options.externals roots) path) v = (.ok followed, after)) :
    WellFollowed t options.moduleExtensions (t.nodeOf options path s roots followed) := by
  have file := file_closure read options.externals roots
  obtain ⟨visited, inside, children⟩ := children_followTargets follows
    (fun _ member => file_of_mem_targets member)
    (fun _ member => nodup_roots_of_mem_targets member) run
  constructor
  · have led := inside.map FollowTarget.file
    rw [← map_file_of_children children, map_file_targets, ← file] at led
    exact led
  · intro child member
    obtain ⟨target, found, childOf⟩ := exists_target_of_mem_children children member
    refine ⟨childOf.nonempty, ?_⟩
    have asked := childOf.roots
    rw [roots_of_mem_targets (inside.subset found), ← childOf.file, ← file] at asked
    exact asked

theorem mem_originsOf {extensions : List String} {c : Closure} {file origin : String} :
    origin ∈ t.originsOf extensions c path file ↔
      ∃ r ∈ c.reexports, ∃ name ∈ r.names,
        t.moduleFile? extensions path r.module = some file ∧ r.originOf name = origin := by
  simp only [originsOf, mem_distinct, List.mem_flatMap, List.mem_filter, List.mem_map,
    decide_eq_true_eq]
  constructor
  · rintro ⟨r, ⟨needed, found⟩, name, named, same⟩
    exact ⟨r, needed, name, named, found, same⟩
  · rintro ⟨r, needed, name, named, found, same⟩
    exact ⟨r, ⟨needed, found⟩, name, named, same⟩

/-- The shape of a followed tree. A node is the closure of its file for its own roots, beside the
modules that lead nowhere and the children. The children are of different files, in the order in
which the statements of the node first lead to them; each is for some of the names that the
statements take from its file, and never for none. The other names that they take from a file are
roots or listed declarations of some node of that file. -/
theorem closure_shape (follows : options.followReexports = true)
    (result : (t.closure options path requested).1 = .ok tree) :
    ∀ node ∈ tree.nodes,
      (∃ s, t.readSource node.own.file = .ok s ∧
        node.own = s.closure options.externals node.own.roots) ∧
      node.unresolved = (node.own.reexports.filter fun r =>
        (t.resolveModule node.own.file r.module options.moduleExtensions).isNone).map
          Reexport.module ∧
      ((t.childFiles node).Nodup ∧
        (t.childFiles node).Sublist (t.filesLedTo options.moduleExtensions node.own)) ∧
      (∀ child ∈ node.followed, child.own.roots ≠ [] ∧ child.own.roots.Nodup ∧
        child.own.roots.Sublist (t.originsOf options.moduleExtensions node.own node.own.file
          (t.canonical child.own.file))) ∧
      ∀ file, ∀ origin ∈ t.originsOf options.moduleExtensions node.own node.own.file file,
        ∃ other ∈ tree.nodes, t.canonical other.own.file = file ∧
          (origin ∈ other.own.roots ∨ origin ∈ other.own.declarationNames) := by
  obtain ⟨after, outcome⟩ := exists_outcome follows result
  simp only [closure, follows, if_true] at result
  have shaped := forall_nodes_followUpTo follows
    (fun _ _ _ _ _ _ _ read run => wellFollowed_nodeOf follows read run) (Prod.ext result rfl)
  intro node member
  obtain ⟨s, roots, read, own⟩ := (outcome.built node member).closure
  refine ⟨⟨s, read, ?_⟩, ?_, ?_, ?_, ?_⟩
  · rw [own, Source.closure_roots]
  · rw [(outcome.built node member).unresolved, unresolvedModules]
    simp only [targetOf?, Option.isNone_map]
  · have led := (shaped node member).files
    exact ⟨(nodup_distinct _).sublist led, led⟩
  · intro child below
    obtain ⟨nonempty, asked⟩ := (shaped node member).roots child below
    exact ⟨nonempty, (nodup_distinct _).sublist asked, asked⟩
  · intro file origin taken
    obtain ⟨r, needed, name, named, found, rfl⟩ := mem_originsOf.mp taken
    have seen := outcome.followed node member r needed name named file found
    exact (outcome.covered file _ seen).resolve_left List.not_mem_nil

/-- Two parts that take one declaration from the same file, and a module that is not there. -/
def crossing : FileTree where
  current := ["w"]
  entries := [(["w"], .directory),
    (["w", "index.ts"], .file (some
      "export { Left } from './left'; export { Right } from './right'; export { X } from './x';")),
    (["w", "left.ts"], .file (some
      "export { A } from './base'; export interface Left { a: A }")),
    (["w", "right.ts"], .file (some
      "export { A as B } from './base'; export interface Right { b: B }")),
    (["w", "base.ts"], .file (some "export interface A {}"))]

theorem closure_shape_crossing :
    ∃ tree, (crossing.closure { followReexports := true } "index.ts" ["Left", "Right", "X"]).1 =
        .ok tree ∧
      ∃ node ∈ tree.nodes, node.own.file = "./right.ts" ∧ crossing.childFiles node = [] ∧
        (∃ s, crossing.readSource "./right.ts" = .ok s ∧
          node.own = s.closure [] node.own.roots) ∧
        "A" ∈ crossing.originsOf ({} : ClosureOptions).moduleExtensions node.own node.own.file
          "/w/base.ts" ∧
        ∃ other ∈ tree.nodes, crossing.canonical other.own.file = "/w/base.ts" ∧
          ("A" ∈ other.own.roots ∨ "A" ∈ other.own.declarationNames) := by
  obtain ⟨tree, result, node, member, file, childless, taken⟩ : ∃ tree,
      (crossing.closure { followReexports := true } "index.ts" ["Left", "Right", "X"]).1 =
        .ok tree ∧
      ∃ node ∈ tree.nodes, node.own.file = "./right.ts" ∧ crossing.childFiles node = [] ∧
        "A" ∈ crossing.originsOf ({} : ClosureOptions).moduleExtensions node.own node.own.file
          "/w/base.ts" := by
    decide +kernel
  have ⟨own, _, _, _, elsewhere⟩ := closure_shape rfl result node member
  rw [file] at own
  exact ⟨tree, result, node, member, file, childless, own, taken, elsewhere _ _ taken⟩

end FileTree

end TypeClosure

import TypeClosure.Proofs.FileClosure
import TypeClosure.Proofs.Targets

/-!
What following names across files comes to. The pairs of files and names that have been seen only
grow, each of them is a root or a listed declaration of some node, and whatever a node takes from
another file has been seen in the end.
-/

namespace TypeClosure

namespace ClosureTree

mutual
/-- The nodes of a tree, each before those that were followed from it. -/
def nodes : ClosureTree → List ClosureTree
  | .node own unresolved followed => .node own unresolved followed :: nodesOfAll followed

def nodesOfAll : List ClosureTree → List ClosureTree
  | [] => []
  | tree :: rest => tree.nodes ++ nodesOfAll rest
end

mutual
theorem map_own_nodes : (tree : ClosureTree) → tree.nodes.map own = tree.closures
  | .node own unresolved followed => by
      rw [nodes, closures, List.map_cons, map_own_nodesOfAll followed]
      rfl

theorem map_own_nodesOfAll : (trees : List ClosureTree) →
    (nodesOfAll trees).map own = closuresOfAll trees
  | [] => rfl
  | tree :: rest => by
      rw [nodesOfAll, closuresOfAll, List.map_append, map_own_nodes tree, map_own_nodesOfAll rest]
end

theorem mem_nodes_self (tree : ClosureTree) : tree ∈ tree.nodes := by
  cases tree
  rw [nodes]
  exact List.mem_cons_self

theorem mem_closures {tree : ClosureTree} {c : Closure} :
    c ∈ tree.closures ↔ ∃ node ∈ tree.nodes, node.own = c := by
  rw [← map_own_nodes, List.mem_map]

end ClosureTree

namespace FileTree

variable {t : FileTree} {options : ClosureOptions} {demanded : String → String → Prop}

/-- A node says what the closure of its file is, and which modules were not found. -/
structure Built (t : FileTree) (options : ClosureOptions) (node : ClosureTree) : Prop where
  closure : ∃ s requested, t.readSource node.own.file = .ok s ∧
    node.own = s.closure options.externals requested
  unresolved : node.unresolved =
    t.unresolvedModules options.moduleExtensions node.own node.own.file

/-- What is seen before and after some nodes have been followed. -/
structure Outcome (t : FileTree) (options : ClosureOptions) (demanded : String → String → Prop)
    (before : List (String × String)) (nodes : List ClosureTree)
    (after : List (String × String)) : Prop where
  grows : before ⊆ after
  covered : ∀ file name, (file, name) ∈ after → (file, name) ∈ before ∨
    ∃ node ∈ nodes, t.canonical node.own.file = file ∧
      (name ∈ node.own.roots ∨ name ∈ node.own.declarationNames)
  built : ∀ node ∈ nodes, t.Built options node
  followed : ∀ node ∈ nodes, ∀ r ∈ node.own.reexports, ∀ name ∈ r.names, ∀ file,
    t.moduleFile? options.moduleExtensions node.own.file r.module = some file →
      (file, r.originOf name) ∈ after
  sound : ∀ node ∈ nodes, ∀ name ∈ node.own.roots, demanded (t.canonical node.own.file) name

theorem Outcome.refl (seen : List (String × String)) :
    Outcome t options demanded seen [] seen where
  grows := fun _ member => member
  covered := fun _ _ member => .inl member
  built := by simp
  followed := by simp
  sound := by simp

theorem Outcome.trans {before middle after : List (String × String)}
    {nodes others : List ClosureTree} (first : Outcome t options demanded before nodes middle)
    (second : Outcome t options demanded middle others after) :
    Outcome t options demanded before (nodes ++ others) after where
  grows := fun _ member => second.grows (first.grows member)
  covered := by
    intro file name member
    rcases second.covered file name member with earlier | ⟨node, found, covers⟩
    · rcases first.covered file name earlier with earlier | ⟨node, found, covers⟩
      · exact .inl earlier
      · exact .inr ⟨node, List.mem_append_left _ found, covers⟩
    · exact .inr ⟨node, List.mem_append_right _ found, covers⟩
  built := List.forall_mem_append.mpr ⟨first.built, second.built⟩
  followed := List.forall_mem_append.mpr
    ⟨fun node member r needed name forwarded file found =>
      second.grows (first.followed node member r needed name forwarded file found),
      second.followed⟩
  sound := List.forall_mem_append.mpr ⟨first.sound, second.sound⟩

/-! ### One step -/

theorem mem_seen_mark {v : Visits} {file other name : String} {names : List String} :
    (other, name) ∈ (v.mark file names).seen ↔
      (other = file ∧ name ∈ names) ∨ (other, name) ∈ v.seen := by
  simp only [Visits.mark, List.mem_append, List.mem_map, Prod.mk.injEq]
  constructor
  · rintro (⟨n, member, rfl, rfl⟩ | old)
    · exact .inl ⟨rfl, member⟩
    · exact .inr old
  · rintro (⟨rfl, member⟩ | old)
    · exact .inl ⟨name, member, rfl, rfl⟩
    · exact .inr old

theorem mem_unseen {v : Visits} {file name : String} {names : List String} :
    name ∈ v.unseen file names ↔ name ∈ names ∧ (file, name) ∉ v.seen := by
  simp [Visits.unseen]

theorem followTargets_cons_of_ne_nil
    {visit : String → List String → Visits → Except Failure ClosureTree × Visits}
    {target : FollowTarget} {rest : List FollowTarget} {v : Visits}
    (some : v.unseen target.file target.roots ≠ []) :
    followTargets visit (target :: rest) v =
      match visit target.path (v.unseen target.file target.roots) v with
      | (.error f, v) => (.error (f.during (.following target.modules)), v)
      | (.ok nested, v) =>
          match followTargets visit rest v with
          | (.error f, v) => (.error f, v)
          | (.ok others, v) => (.ok (nested :: others), v) := by
  rw [followTargets]
  exact if_neg fun empty => some (List.isEmpty_iff.mp empty)

/-- A target is passed over when all its names have been seen, and visited for the others. -/
theorem followTargets_cons_eq_ok
    {visit : String → List String → Visits → Except Failure ClosureTree × Visits}
    {target : FollowTarget} {rest : List FollowTarget} {v after : Visits}
    {trees : List ClosureTree}
    (run : followTargets visit (target :: rest) v = (.ok trees, after)) :
    (v.unseen target.file target.roots = [] ∧
        followTargets visit rest (v.record (.skipping target.path)) = (.ok trees, after)) ∨
      (v.unseen target.file target.roots ≠ [] ∧ ∃ nested others middle,
        visit target.path (v.unseen target.file target.roots) v = (.ok nested, middle) ∧
          followTargets visit rest middle = (.ok others, after) ∧ trees = nested :: others) := by
  simp only [followTargets] at run
  split at run
  · next none => exact .inl ⟨List.isEmpty_iff.mp none, run⟩
  · next some =>
      refine .inr ⟨fun none => some (List.isEmpty_iff.mpr none), ?_⟩
      split at run
      · cases run
      · next nested middle visited =>
          split at run
          · cases run
          · next others last ran =>
              cases run
              exact ⟨nested, others, middle, visited, ran, rfl⟩

/-- The node of a file, in front of those that were followed from it. -/
def nodeOf (t : FileTree) (options : ClosureOptions) (path : String) (s : Source)
    (roots : List String) (followed : List ClosureTree) : ClosureTree :=
  let c := s.closure options.externals roots
  .node c (t.unresolvedModules options.moduleExtensions c path) followed

/-- What has been seen when a closure has been built for some names of a file. -/
def seenWith (v : Visits) (file : String) (roots : List String) (c : Closure) : Visits :=
  (v.mark file roots).mark file (c.roots ++ c.declarationNames)

/-- A file is read, its closure is built, and the files that it takes names from are followed. -/
theorem followUpTo_eq_ok (follows : options.followReexports = true) {n : Nat} {path : String}
    {roots : List String} {v after : Visits} {tree : ClosureTree}
    (run : t.followUpTo options n path roots v = (.ok tree, after)) :
    ∃ m s followed, n = m + 1 ∧ t.readSource path = .ok s ∧
      followTargets (t.followUpTo options m)
          (t.targets options.moduleExtensions (s.closure options.externals roots) path)
          (seenWith (v.record (.parsing path)) (t.canonical path) roots
            (s.closure options.externals roots)) = (.ok followed, after) ∧
      tree = t.nodeOf options path s roots followed := by
  cases n with
  | zero => cases run
  | succ m =>
      simp only [followUpTo, follows, if_true] at run
      split at run
      · cases run
      · next s read =>
          split at run
          · cases run
          · next followed last ran =>
              cases run
              exact ⟨m, s, followed, rfl, read, ran, rfl⟩

theorem file_closure {path : String} {s : Source} (read : t.readSource path = .ok s)
    (externals : List Glob.Pattern) (roots : List String) :
    (s.closure externals roots).file = path :=
  path_of_readSource read

theorem nodes_nodeOf (path : String) (s : Source) (roots : List String)
    (followed : List ClosureTree) :
    (t.nodeOf options path s roots followed).nodes =
      t.nodeOf options path s roots followed :: ClosureTree.nodesOfAll followed := by
  rw [nodeOf, ClosureTree.nodes]

theorem built_nodeOf {path : String} {s : Source} (read : t.readSource path = .ok s)
    (roots : List String) (followed : List ClosureTree) :
    t.Built options (t.nodeOf options path s roots followed) where
  closure := ⟨s, roots, (congrArg t.readSource (file_closure read _ _)).trans read, rfl⟩
  unresolved := by
    rw [nodeOf, ClosureTree.own, file_closure read]
    rfl

/-- What is seen with a closure are its roots and the declarations that it lists. -/
theorem mem_seenWith {v : Visits} {file other name : String} {roots : List String} {s : Source}
    {externals : List Glob.Pattern} :
    (other, name) ∈ (seenWith v file roots (s.closure externals roots)).seen ↔
      (other = file ∧ (name ∈ (s.closure externals roots).roots ∨
        name ∈ (s.closure externals roots).declarationNames)) ∨ (other, name) ∈ v.seen := by
  rw [seenWith, mem_seen_mark, mem_seen_mark, List.mem_append]
  constructor
  · rintro (listed | ⟨rfl, requested⟩ | old)
    · exact .inl listed
    · have asked : name ∈ (s.closure externals roots).roots :=
        (Source.mem_rootsFor_of_ne_nil (List.ne_nil_of_mem requested)).mpr requested
      exact .inl ⟨rfl, .inl asked⟩
    · exact .inr old
  · rintro (listed | old)
    · exact .inl listed
    · exact .inr (.inr old)

/-! ### Runs -/

/-- What is demanded of a file leads to demands on the files that it takes names from. -/
def Propagates (t : FileTree) (options : ClosureOptions)
    (demanded : String → String → Prop) : Prop :=
  ∀ path s requested, t.readSource path = .ok s →
    (∀ name ∈ s.contents.rootsFor requested, demanded (t.canonical path) name) →
    ∀ r ∈ (s.closure options.externals requested).reexports, ∀ name ∈ r.names, ∀ file,
      t.moduleFile? options.moduleExtensions path r.module = some file →
        demanded file (r.originOf name)

/-- What a visit of a file for some names is relied on for. -/
def Visiting (t : FileTree) (options : ClosureOptions) (demanded : String → String → Prop)
    (visit : String → List String → Visits → Except Failure ClosureTree × Visits) : Prop :=
  ∀ path roots v tree after, roots ≠ [] →
    (∀ name ∈ roots, demanded (t.canonical path) name) →
    visit path roots v = (.ok tree, after) →
      Outcome t options demanded v.seen tree.nodes after.seen ∧
        ∀ name ∈ roots, (t.canonical path, name) ∈ after.seen

theorem outcome_followTargets
    {visit : String → List String → Visits → Except Failure ClosureTree × Visits}
    (visiting : Visiting t options demanded visit) {targets : List FollowTarget}
    {v after : Visits} {trees : List ClosureTree}
    (files : ∀ target ∈ targets, target.file = t.canonical target.path)
    (asked : ∀ file name, Asks targets file name → demanded file name)
    (run : followTargets visit targets v = (.ok trees, after)) :
    Outcome t options demanded v.seen (ClosureTree.nodesOfAll trees) after.seen ∧
      ∀ file name, Asks targets file name → (file, name) ∈ after.seen := by
  induction targets generalizing v trees with
  | nil =>
      cases run
      refine ⟨.refl _, ?_⟩
      rintro file name ⟨_, member, _⟩
      exact absurd member List.not_mem_nil
  | cons target rest ih =>
      rw [List.forall_mem_cons] at files
      have later := fun file name asks => asked file name (asks_cons.mpr (.inr asks))
      rcases followTargets_cons_eq_ok run with ⟨none, run⟩ | ⟨some, nested, others, middle,
        visited, ran, rfl⟩
      · obtain ⟨outcome, seen⟩ := ih files.2 later run
        refine ⟨outcome, ?_⟩
        intro file name asks
        rcases asks_cons.mp asks with ⟨rfl, member⟩ | asks
        · apply outcome.grows
          by_contra unseen
          exact List.not_mem_nil (none ▸ mem_unseen.mpr ⟨member, unseen⟩)
        · exact seen file name asks
      · have roots : ∀ name ∈ v.unseen target.file target.roots,
            demanded (t.canonical target.path) name := by
          intro name member
          exact asked _ name (asks_cons.mpr (.inl ⟨files.1, (mem_unseen.mp member).1⟩))
        obtain ⟨first, marked⟩ := visiting _ _ _ _ _ some roots visited
        obtain ⟨second, seen⟩ := ih files.2 later ran
        refine ⟨first.trans second, ?_⟩
        intro file name asks
        rcases asks_cons.mp asks with ⟨rfl, member⟩ | asks
        · apply second.grows
          by_cases old : (target.file, name) ∈ v.seen
          · exact first.grows old
          · rw [files.1]
            exact marked name (mem_unseen.mpr ⟨member, old⟩)
        · exact seen file name asks

/-- A node comes before what its targets come to. -/
theorem outcome_nodeOf {path : String} {roots : List String} {s : Source}
    (read : t.readSource path = .ok s) {v : Visits} {followed : List ClosureTree}
    {after : List (String × String)}
    (demand : ∀ name ∈ s.contents.rootsFor roots, demanded (t.canonical path) name)
    (outcome : Outcome t options demanded
      (seenWith v (t.canonical path) roots (s.closure options.externals roots)).seen
      (ClosureTree.nodesOfAll followed) after)
    (seen : ∀ file name, Asks (t.targets options.moduleExtensions
      (s.closure options.externals roots) path) file name → (file, name) ∈ after) :
    Outcome t options demanded v.seen (t.nodeOf options path s roots followed).nodes after where
  grows := fun (_, _) member => outcome.grows (mem_seenWith.mpr (.inr member))
  covered := by
    intro file name member
    rw [nodes_nodeOf]
    rcases outcome.covered file name member with marked | ⟨node, found, covers⟩
    · rcases mem_seenWith.mp marked with ⟨rfl, listed⟩ | old
      · exact .inr ⟨_, List.mem_cons_self, congrArg t.canonical (file_closure read _ _), listed⟩
      · exact .inl old
    · exact .inr ⟨node, List.mem_cons_of_mem _ found, covers⟩
  built := by
    rw [nodes_nodeOf, List.forall_mem_cons]
    exact ⟨built_nodeOf read roots followed, outcome.built⟩
  followed := by
    rw [nodes_nodeOf, List.forall_mem_cons]
    refine ⟨?_, outcome.followed⟩
    intro r needed name forwarded file found
    refine seen file _ (asks_targets.mpr ⟨r, needed, name, forwarded, ?_, rfl⟩)
    rwa [← file_closure read options.externals roots]
  sound := by
    rw [nodes_nodeOf, List.forall_mem_cons]
    refine ⟨?_, outcome.sound⟩
    intro name member
    change demanded (t.canonical (s.closure options.externals roots).file) name
    rw [file_closure read]
    exact demand name member

theorem outcome_followUpTo (follows : options.followReexports = true)
    (propagates : t.Propagates options demanded) {n : Nat} {path : String} {roots : List String}
    {v after : Visits} {tree : ClosureTree}
    (run : t.followUpTo options n path roots v = (.ok tree, after))
    (demand : ∀ s, t.readSource path = .ok s → ∀ name ∈ s.contents.rootsFor roots,
      demanded (t.canonical path) name) :
    Outcome t options demanded v.seen tree.nodes after.seen ∧
      ∀ name ∈ roots, (t.canonical path, name) ∈ after.seen := by
  induction n generalizing path roots v after tree with
  | zero => cases run
  | succ n ih =>
      obtain ⟨m, s, followed, eq, read, ran, rfl⟩ := followUpTo_eq_ok follows run
      cases eq
      have visiting : Visiting t options demanded (t.followUpTo options n) := by
        intro path roots v tree after nonempty demand run
        refine ih run ?_
        intro s _ name member
        exact demand name ((Source.mem_rootsFor_of_ne_nil nonempty).mp member)
      obtain ⟨outcome, seen⟩ := outcome_followTargets visiting
        (fun _ member => file_of_mem_targets member) (by
          intro file name asks
          obtain ⟨r, needed, name', forwarded, found, rfl⟩ := asks_targets.mp asks
          exact propagates path s roots read (demand s read) r needed name' forwarded file found)
        ran
      refine ⟨outcome_nodeOf read (demand s read) outcome seen, ?_⟩
      intro name member
      apply outcome.grows
      exact mem_seenWith.mpr (.inl ⟨rfl, .inl
        ((Source.mem_rootsFor_of_ne_nil (List.ne_nil_of_mem member)).mpr member)⟩)

/-- Whatever is demanded, a followed closure has an outcome. -/
theorem exists_outcome (follows : options.followReexports = true) {path : String}
    {requested : List String} {tree : ClosureTree}
    (result : (t.closure options path requested).1 = .ok tree) :
    ∃ after, Outcome t options (fun _ _ => True) [] tree.nodes after := by
  simp only [closure, follows, if_true] at result
  have anything : t.Propagates options fun _ _ => True :=
    fun _ _ _ _ _ _ _ _ _ _ _ => trivial
  exact ⟨_, (outcome_followUpTo follows anything (Prod.ext result rfl)
    fun _ _ _ _ => trivial).1⟩

theorem source_of_mem_closures (follows : options.followReexports = true) {path : String}
    {requested : List String} {tree : ClosureTree}
    (result : (t.closure options path requested).1 = .ok tree) {c : Closure}
    (member : c ∈ tree.closures) :
    ∃ s roots, t.readSource c.file = .ok s ∧ c = s.closure options.externals roots := by
  obtain ⟨after, outcome⟩ := exists_outcome follows result
  obtain ⟨node, found, rfl⟩ := ClosureTree.mem_closures.mp member
  exact (outcome.built node found).closure

end FileTree

end TypeClosure

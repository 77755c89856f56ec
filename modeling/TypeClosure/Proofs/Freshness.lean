import TypeClosure.Proofs.Following

/-!
In which order names are demanded of files. What a closure is asked for has not been seen before,
so no earlier closure of its file was asked for it or lists it.
-/

namespace TypeClosure.FileTree

variable {t : FileTree} {options : ClosureOptions}

def demands (t : FileTree) (c : Closure) : List (String × String) :=
  c.roots.map (t.canonical c.file, ·)

/-- What has been seen once a closure has been built. -/
def marks (t : FileTree) (c : Closure) : List (String × String) :=
  (c.roots ++ c.declarationNames).map (t.canonical c.file, ·)

theorem mem_demands {c : Closure} {file name : String} :
    (file, name) ∈ t.demands c ↔ t.canonical c.file = file ∧ name ∈ c.roots := by
  simp [demands, and_comm]

theorem mem_marks {c : Closure} {file name : String} :
    (file, name) ∈ t.marks c ↔
      t.canonical c.file = file ∧ (name ∈ c.roots ∨ name ∈ c.declarationNames) := by
  simp [marks, ← or_and_right, and_comm]

/-- Closures that are built one after the other, each for names that are new. -/
structure Fresh (t : FileTree) (before : List (String × String)) (closures : List Closure)
    (after : List (String × String)) : Prop where
  grows : before ⊆ after
  new : ∀ c ∈ closures, ∀ pair ∈ t.demands c, pair ∉ before
  marked : ∀ c ∈ closures, t.marks c ⊆ after
  later : closures.Pairwise fun first second => ∀ pair ∈ t.demands second, pair ∉ t.marks first

theorem Fresh.refl (seen : List (String × String)) : Fresh t seen [] seen where
  grows := fun _ member => member
  new := by simp
  marked := by simp
  later := List.Pairwise.nil

theorem Fresh.trans {before middle after : List (String × String)} {closures others : List Closure}
    (first : Fresh t before closures middle) (second : Fresh t middle others after) :
    Fresh t before (closures ++ others) after where
  grows := fun _ member => second.grows (first.grows member)
  new := by
    intro c member pair demanded old
    cases List.mem_append.mp member with
    | inl here => exact first.new c here pair demanded old
    | inr there => exact second.new c there pair demanded (first.grows old)
  marked := by
    intro c member pair marked
    cases List.mem_append.mp member with
    | inl here => exact second.grows (first.marked c here marked)
    | inr there => exact second.marked c there marked
  later := by
    rw [List.pairwise_append]
    refine ⟨first.later, second.later, ?_⟩
    intro c member other member' pair demanded marked
    exact second.new other member' pair demanded (first.marked c member marked)

/-- A closure for new names comes before those that are followed from it. -/
theorem Fresh.cons {path : String} {roots : List String} {v : Visits} {s : Source}
    {closures : List Closure} {after : List (String × String)}
    (read : t.readSource path = .ok s)
    (new : ∀ name ∈ s.contents.rootsFor roots, (t.canonical path, name) ∉ v.seen)
    (rest : Fresh t (seenWith v (t.canonical path) roots
      (s.closure options.externals roots)).seen closures after) :
    Fresh t v.seen (s.closure options.externals roots :: closures) after := by
  have first : Fresh t v.seen [s.closure options.externals roots]
      (seenWith v (t.canonical path) roots (s.closure options.externals roots)).seen :=
    { grows := fun (_, _) member => mem_seenWith.mpr (.inr member)
      new := by
        rw [List.forall_mem_singleton]
        intro pair demanded
        obtain ⟨file, name⟩ := pair
        have ⟨same, root⟩ := mem_demands.mp demanded
        rw [file_closure read] at same
        rw [← same]
        exact new name root
      marked := by
        rw [List.forall_mem_singleton]
        intro pair marked
        obtain ⟨file, name⟩ := pair
        have ⟨same, listed⟩ := mem_marks.mp marked
        rw [file_closure read] at same
        exact mem_seenWith.mpr (.inl ⟨same.symm, listed⟩)
      later := List.pairwise_singleton _ _ }
  exact first.trans rest

theorem fresh_followTargets
    {visit : String → List String → Visits → Except Failure ClosureTree × Visits}
    (visiting : ∀ path roots v tree after, roots ≠ [] →
      (∀ name ∈ roots, (t.canonical path, name) ∉ v.seen) →
      visit path roots v = (.ok tree, after) → Fresh t v.seen tree.closures after.seen)
    {targets : List FollowTarget} {v after : Visits} {trees : List ClosureTree}
    (files : ∀ target ∈ targets, target.file = t.canonical target.path)
    (run : followTargets visit targets v = (.ok trees, after)) :
    Fresh t v.seen (ClosureTree.closuresOfAll trees) after.seen := by
  induction targets generalizing v trees with
  | nil =>
      cases run
      exact .refl _
  | cons target rest ih =>
      rw [List.forall_mem_cons] at files
      cases followTargets_cons_eq_ok run with
      | inl skipped =>
          have fresh := ih files.2 skipped.2
          exact fresh
      | inr followed =>
          obtain ⟨some, nested, others, middle, visited, ran, rfl⟩ := followed
          have new : ∀ name ∈ v.unseen target.file target.roots,
              (t.canonical target.path, name) ∉ v.seen := by
            intro name member
            rw [← files.1]
            exact (mem_unseen.mp member).2
          exact (visiting _ _ _ _ _ some new visited).trans (ih files.2 ran)

theorem followUpTo_alone_eq_ok (alone : options.followReexports = false) {n : Nat} {path : String}
    {roots : List String} {v after : Visits} {tree : ClosureTree}
    (run : t.followUpTo options n path roots v = (.ok tree, after)) :
    ∃ s, t.readSource path = .ok s ∧ tree = .node (s.closure options.externals roots) [] [] ∧
      after = seenWith (v.record (.parsing path)) (t.canonical path) roots
        (s.closure options.externals roots) := by
  cases n with
  | zero => cases run
  | succ m =>
      simp only [followUpTo, alone, Bool.false_eq_true, if_false] at run
      split at run
      · cases run
      · next s read =>
          cases run
          exact ⟨s, read, rfl, rfl⟩

theorem fresh_followUpTo {n : Nat} {path : String} {roots : List String} {v after : Visits}
    {tree : ClosureTree} (run : t.followUpTo options n path roots v = (.ok tree, after))
    (new : ∀ s, t.readSource path = .ok s → ∀ name ∈ s.contents.rootsFor roots,
      (t.canonical path, name) ∉ v.seen) :
    Fresh t v.seen tree.closures after.seen := by
  induction n generalizing path roots v after tree with
  | zero => cases run
  | succ n ih =>
      cases follows : options.followReexports with
      | false =>
          obtain ⟨s, read, rfl, rfl⟩ := followUpTo_alone_eq_ok follows run
          exact .cons (v := v.record (.parsing path)) read (new s read) (.refl _)
      | true =>
          obtain ⟨m, s, followed, eq, read, ran, rfl⟩ := followUpTo_eq_ok follows run
          cases eq
          apply Fresh.cons (v := v.record (.parsing path)) read (new s read)
          apply fresh_followTargets _ (fun _ member => file_of_mem_targets member) ran
          intro path roots v tree after nonempty new visited
          apply ih visited
          intro s read name member
          exact new name ((Source.mem_rootsFor_of_ne_nil nonempty).mp member)

/-- Nothing has been seen before the first file, so all demands of a closure tree are new. -/
theorem fresh_closure {path : String} {requested : List String} {tree : ClosureTree}
    (result : (t.closure options path requested).1 = .ok tree) :
    ∃ after, Fresh t [] tree.closures after := by
  simp only [closure] at result
  refine ⟨_, fresh_followUpTo (Prod.ext result rfl) ?_⟩
  intro s read name member
  exact List.not_mem_nil

end TypeClosure.FileTree

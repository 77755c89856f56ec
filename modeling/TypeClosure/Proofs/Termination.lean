import TypeClosure.Proofs.Depth
import TypeClosure.Proofs.Freshness

/-!
The recursion of following, without a bound on its depth. A visit of a file calls for visits of
others, each for names that are new; on the finitely many names that may be demanded this comes to
an end.
-/

namespace TypeClosure

open Relation

/-- A visit of a file for some names, with what has been seen before it. -/
structure Visit where
  path : String
  roots : List String
  before : Visits

namespace FileTree

variable {t : FileTree} {options : ClosureOptions}

/-- The calls that are made while targets are followed one after the other. A call is made when
those before it have come to an end. -/
inductive CallsFor (t : FileTree) (options : ClosureOptions) :
    List FollowTarget → Visits → Visit → Prop
  | first {target : FollowTarget} {rest : List FollowTarget} {v : Visits} :
      v.unseen target.file target.roots ≠ [] →
      CallsFor t options (target :: rest) v ⟨target.path, v.unseen target.file target.roots, v⟩
  | skipped {target : FollowTarget} {rest : List FollowTarget} {v : Visits} {call : Visit} :
      v.unseen target.file target.roots = [] →
      CallsFor t options rest (v.record (.skipping target.path)) call →
      CallsFor t options (target :: rest) v call
  | later {target : FollowTarget} {rest : List FollowTarget} {v middle : Visits} {call : Visit}
      {n : Nat} {nested : ClosureTree} :
      v.unseen target.file target.roots ≠ [] →
      t.followUpTo options n target.path (v.unseen target.file target.roots) v =
        (.ok nested, middle) →
      CallsFor t options rest middle call → CallsFor t options (target :: rest) v call

/-- What has been seen when the files that a closure takes names from are followed. -/
def Visit.seen (t : FileTree) (options : ClosureOptions) (call : Visit) (s : Source) : Visits :=
  seenWith (call.before.record (.parsing call.path)) (t.canonical call.path) call.roots
    (s.closure options.externals call.roots)

def Calls (t : FileTree) (options : ClosureOptions) (outer inner : Visit) : Prop :=
  options.followReexports = true ∧ ∃ s, t.readSource outer.path = .ok s ∧
    CallsFor t options
      (t.targets options.moduleExtensions (s.closure options.externals outer.roots) outer.path)
      (Visit.seen t options outer s) inner

/-- What a visit is called for: names of a file that a target asks for and that are new. -/
theorem CallsFor.called (follows : options.followReexports = true) {targets : List FollowTarget}
    {v : Visits} {call : Visit} (calls : CallsFor t options targets v call) :
    call.roots ≠ [] ∧ v.seen ⊆ call.before.seen ∧ ∃ target ∈ targets,
      call.path = target.path ∧ call.roots = call.before.unseen target.file target.roots := by
  induction calls with
  | first some => exact ⟨some, fun _ member => member, _, List.mem_cons_self, rfl, rfl⟩
  | skipped _ _ ih =>
      obtain ⟨some, grows, target, member, called⟩ := ih
      exact ⟨some, grows, target, List.mem_cons_of_mem _ member, called⟩
  | later _ visited _ ih =>
      obtain ⟨some, grows, target, member, called⟩ := ih
      have earlier := seen_followUpTo follows visited
      exact ⟨some, fun _ old => grows (earlier old), target, List.mem_cons_of_mem _ member, called⟩

theorem new_of_calls {outer inner : Visit} (calls : t.Calls options outer inner) :
    inner.roots ≠ [] ∧ inner.roots.Nodup ∧
      ∀ name ∈ inner.roots, (t.canonical inner.path, name) ∉ inner.before.seen := by
  obtain ⟨follows, s, _, calls⟩ := calls
  obtain ⟨some, _, target, member, path, roots⟩ := calls.called follows
  refine ⟨some, ?_, ?_⟩
  · rw [roots]
    exact (nodup_roots_of_mem_targets member).filter _
  · intro name root
    rw [roots] at root
    rw [path, ← file_of_mem_targets member]
    exact (mem_unseen.mp root).2

theorem demandable_of_calls (anchored : t.Anchored) {outer inner : Visit}
    (calls : t.Calls options outer inner) :
    ∀ name ∈ inner.roots, (t.canonical inner.path, name) ∈ t.demandable := by
  obtain ⟨follows, s, read, calls⟩ := calls
  obtain ⟨_, _, target, member, path, roots⟩ := calls.called follows
  intro name root
  rw [roots] at root
  rw [path, ← file_of_mem_targets member]
  exact mem_demandable_of_asks anchored read ⟨target, member, rfl, (mem_unseen.mp root).1⟩

theorem seen_of_calls {outer inner : Visit} (calls : t.Calls options outer inner) :
    outer.before.seen ⊆ inner.before.seen ∧
      ∀ name ∈ outer.roots, (t.canonical outer.path, name) ∈ inner.before.seen := by
  obtain ⟨follows, s, _, calls⟩ := calls
  obtain ⟨_, grows, _⟩ := calls.called follows
  constructor
  · intro pair old
    exact grows (subset_seenWith old)
  · intro name root
    apply grows
    have asked : name ∈ (s.closure options.externals outer.roots).roots :=
      (Source.mem_rootsFor_of_ne_nil (List.ne_nil_of_mem root)).mpr root
    exact mem_seenWith.mpr (.inl ⟨rfl, .inl asked⟩)

theorem unseenPairs_lt_of_calls (anchored : t.Anchored) {first outer inner : Visit}
    (called : t.Calls options first outer) (calls : t.Calls options outer inner) :
    t.unseenPairs inner.before.seen < t.unseenPairs outer.before.seen := by
  -- The names of the outer visit are demandable only if another visit called it, which leaves the
  -- first visit of all without a bound of its own.
  obtain ⟨some, _, new⟩ := new_of_calls called
  obtain ⟨grows, seen⟩ := seen_of_calls calls
  obtain ⟨name, root⟩ := List.exists_mem_of_ne_nil _ some
  exact unseenPairs_lt_of_mem grows (demandable_of_calls anchored called name root)
    (new name root) (seen name root)

theorem acc_of_calls (anchored : t.Anchored) {outer inner : Visit}
    (calls : t.Calls options outer inner) :
    Acc (fun inner outer => t.Calls options outer inner) inner := by
  -- Each call leaves fewer pairs unseen.
  induction left : t.unseenPairs inner.before.seen using Nat.strongRecOn
    generalizing outer inner with
  | ind n ih =>
      constructor
      intro next calls'
      exact ih _ (left ▸ unseenPairs_lt_of_calls anchored calls calls') calls' rfl

/-! ### Bounds -/

theorem followTargets_congr {n m : Nat} {targets : List FollowTarget} {v : Visits}
    (same : ∀ call, CallsFor t options targets v call →
      t.followUpTo options n call.path call.roots call.before =
        t.followUpTo options m call.path call.roots call.before) :
    followTargets (t.followUpTo options n) targets v =
      followTargets (t.followUpTo options m) targets v := by
  induction targets generalizing v with
  | nil => rfl
  | cons target rest ih =>
      by_cases none : v.unseen target.file target.roots = []
      · simp only [followTargets, none, List.isEmpty_nil, if_true]
        apply ih
        intro call calls
        exact same call (.skipped none calls)
      · have here := same _ (.first none)
        simp only [followTargets, List.isEmpty_eq_false_iff.mpr none, Bool.false_eq_true, if_false]
        rw [← here]
        cases visited : t.followUpTo options n target.path (v.unseen target.file target.roots)
            v with
        | mk result middle =>
            cases result with
            | error f => rfl
            | ok nested =>
                have there := ih fun call calls => same call (.later none visited calls)
                simp only [there]

/-- What a visit comes to depends on its own visits only, not on how deep it may go. -/
theorem followUpTo_congr {n m : Nat} {call : Visit}
    (same : ∀ inner, t.Calls options call inner →
      t.followUpTo options n inner.path inner.roots inner.before =
        t.followUpTo options m inner.path inner.roots inner.before) :
    t.followUpTo options (n + 1) call.path call.roots call.before =
      t.followUpTo options (m + 1) call.path call.roots call.before := by
  simp only [followUpTo]
  cases read : t.readSource call.path with
  | error f => rfl
  | ok s =>
      cases follows : options.followReexports with
      | false => rfl
      | true =>
          have ran := followTargets_congr (v := Visit.seen t options call s)
            fun inner calls => same inner ⟨follows, s, read, calls⟩
          simp only [Visit.seen, seenWith] at ran
          simp only [ran]

theorem unseenPairs_pos_of_calls (anchored : t.Anchored) {outer inner : Visit}
    (calls : t.Calls options outer inner) : 0 < t.unseenPairs inner.before.seen := by
  obtain ⟨some, _, new⟩ := new_of_calls calls
  obtain ⟨name, root⟩ := List.exists_mem_of_ne_nil _ some
  apply List.countP_pos_iff.mpr
  exact ⟨_, demandable_of_calls anchored calls name root, by simpa using new name root⟩

/-- A visit that may go as deep as there are unseen pairs need not go deeper. -/
theorem followUpTo_eq_of_le (anchored : t.Anchored) {outer inner : Visit}
    (calls : t.Calls options outer inner) {n m : Nat}
    (enough : t.unseenPairs inner.before.seen ≤ n) (more : n ≤ m) :
    t.followUpTo options n inner.path inner.roots inner.before =
      t.followUpTo options m inner.path inner.roots inner.before := by
  -- Each call takes one from the bound and at least one from the unseen pairs.
  induction n generalizing outer inner m with
  | zero =>
      have some := unseenPairs_pos_of_calls anchored calls
      omega
  | succ n ih =>
      cases m with
      | zero => omega
      | succ m =>
          apply followUpTo_congr
          intro next calls'
          have less := unseenPairs_lt_of_calls anchored calls calls'
          exact ih calls' (by omega) (by omega)

theorem followUpTo_start_eq (anchored : t.Anchored) (path : String) (roots : List String) {n : Nat}
    (enough : t.followBound ≤ n) :
    t.followUpTo options ((if options.followReexports then t.followBound else 0) + 1) path roots
      {} = t.followUpTo options (n + 1) path roots {} := by
  apply @followUpTo_congr t options _ _ ⟨path, roots, {}⟩
  intro inner calls
  rw [if_pos calls.1]
  apply followUpTo_eq_of_le anchored calls _ enough
  rw [← length_demandable]
  exact List.countP_le_length

/-- Following ends, whatever is asked of whichever file: no chain of visits goes on for ever, and
what a visit comes to is the same for every bound on the depth from some bound on. Each visit is
made for names that are new, so no two closures of a file have a root in common. -/
theorem closure_terminates (anchored : t.Anchored) (options : ClosureOptions) (path : String)
    (roots : List String) :
    Acc (fun inner outer => t.Calls options outer inner) ⟨path, roots, {}⟩ ∧
    (∃ result visits, t.closure options path roots = (result, visits.steps) ∧
      (∀ f, result = .error f → f.cause ≠ .nesting) ∧
      ∃ bound, ∀ n, bound ≤ n → t.followUpTo options n path roots {} = (result, visits)) ∧
    (∀ outer inner, t.Calls options outer inner →
      inner.roots ≠ [] ∧ inner.roots.Nodup ∧
        ∀ name ∈ inner.roots, (t.canonical inner.path, name) ∉ inner.before.seen) ∧
    ∀ tree, (t.closure options path roots).1 = .ok tree →
      tree.closures.Pairwise fun first second =>
        t.canonical first.file = t.canonical second.file →
          ∀ name ∈ first.roots, name ∉ second.roots := by
  refine ⟨?_, ?_, fun outer inner calls => new_of_calls calls, ?_⟩
  · constructor
    intro inner calls
    exact acc_of_calls anchored calls
  · refine ⟨_, _, rfl, fun f failed => cause_closure_ne_nesting anchored failed,
      t.followBound + 1, ?_⟩
    intro n enough
    cases n with
    | zero => omega
    | succ n => exact (followUpTo_start_eq anchored path roots (by omega)).symm
  · intro tree result
    obtain ⟨after, fresh⟩ := fresh_closure result
    apply fresh.later.imp
    intro first second unmarked same name root again
    exact unmarked _ (mem_demands.mpr ⟨rfl, again⟩) (mem_marks.mpr ⟨same, .inl root⟩)

/-- A file that forwards names from itself, under other names and under longer and longer paths. -/
def spiral : FileTree where
  current := ["w"]
  entries := [(["w"], .directory),
    (["w", "a.ts"], .file (some "export { N2 as N1, N3 as N2, N1 as N3 } from './a';"))]

theorem closure_terminates_spiral :
    Acc (fun inner outer => spiral.Calls { followReexports := true } outer inner)
        ⟨"a.ts", ["N1"], {}⟩ ∧
      ∃ tree, (spiral.closure { followReexports := true } "a.ts" ["N1"]).1 = .ok tree ∧
        tree.closures.map Closure.file = ["a.ts", "./a.ts", "././a.ts"] ∧
        tree.closures.Pairwise fun first second =>
          spiral.canonical first.file = spiral.canonical second.file →
            ∀ name ∈ first.roots, name ∉ second.roots := by
  have ⟨ends, _, _, apart⟩ := closure_terminates (t := spiral) (by decide +kernel)
    { followReexports := true } "a.ts" ["N1"]
  obtain ⟨tree, result, files⟩ : ∃ tree,
      (spiral.closure { followReexports := true } "a.ts" ["N1"]).1 = .ok tree ∧
        tree.closures.map Closure.file = ["a.ts", "./a.ts", "././a.ts"] := by
    decide +kernel
  exact ⟨ends, tree, result, files, apart tree result⟩

end FileTree

end TypeClosure

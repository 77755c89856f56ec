import Mathlib.Data.List.Forall2
import TypeClosure.Command.Run
import TypeClosure.Proofs.Combination
import TypeClosure.Proofs.PublicNames

/-!
Requests for the same names in another order. Both are followed in step: every visit is made for the
same names, and the trees that are built have the same shape.
-/

namespace TypeClosure

/-- The same names in any order, and any number of times. -/
def SameNames (names others : List String) : Prop := ∀ name, name ∈ names ↔ name ∈ others

namespace SameNames

variable {names others added added' : List String}

theorem eq_nil_iff (same : SameNames names others) : names = [] ↔ others = [] := by
  rw [List.eq_nil_iff_forall_not_mem, List.eq_nil_iff_forall_not_mem]
  exact forall_congr' fun name => not_congr (same name)

theorem isEmpty_eq (same : SameNames names others) : names.isEmpty = others.isEmpty := by
  rw [Bool.eq_iff_iff, List.isEmpty_iff, List.isEmpty_iff]
  exact same.eq_nil_iff

theorem foldl_addName (same : SameNames names others) (same' : SameNames added added') :
    SameNames (added.foldl addName names) (added'.foldl addName others) := by
  intro name
  rw [mem_foldl_addName, mem_foldl_addName, same name, same' name]

theorem rootsFor (same : SameNames names others) (c : Contents) :
    SameNames (c.rootsFor names) (c.rootsFor others) := by
  intro name
  rw [Source.mem_rootsFor, Source.mem_rootsFor, same.isEmpty_eq]
  split
  · exact Iff.rfl
  · exact same name

end SameNames

/-! ### Closures -/

/-- The same statement for the same names. -/
structure Reexport.Alike (r r' : Reexport) : Prop where
  module : r.module = r'.module
  names : SameNames r.names r'.names
  originOf : ∀ name ∈ r.names, r.originOf name = r'.originOf name

/-- Closures that differ in the order of their names only. -/
structure Closure.Alike (c c' : Closure) : Prop where
  file : c.file = c'.file
  roots : SameNames c.roots c'.roots
  declarations : c.declarations = c'.declarations
  external : SameNames c.external c'.external
  reexports : List.Forall₂ Reexport.Alike c.reexports c'.reexports
  missingRoots : SameNames c.missingRoots c'.missingRoots

theorem Reexport.alike_restrictTo (r : Reexport) {names others : List String}
    (same : SameNames names others) : (r.restrictTo names).Alike (r.restrictTo others) where
  module := rfl
  names := by
    rw [names_restrictTo, names_restrictTo]
    exact same
  originOf := by
    intro name member
    rw [names_restrictTo] at member
    rw [originOf_restrictTo member, originOf_restrictTo ((same name).mp member)]

theorem Contents.alike_neededReexports (c : Contents) {forwarded forwarded' : List (List String)}
    (same : List.Forall₂ SameNames forwarded forwarded') :
    List.Forall₂ Reexport.Alike (c.neededReexports forwarded) (c.neededReexports forwarded') := by
  unfold neededReexports
  induction same generalizing c with
  | nil => simp
  | @cons names others _ _ same _ ih =>
      cases statements : c.reexports with
      | nil => simp
      | cons r rest =>
          have later := ih { c with reexports := rest }
          have empty := same.isEmpty_eq
          cases none : others.isEmpty with
          | true => simpa [none, empty] using later
          | false =>
              simp only [List.zip_cons_cons, none, empty, Bool.not_false, List.filter_cons_of_pos,
                List.map_cons]
              exact .cons (r.alike_restrictTo same) later

/-- Requests for the same names have closures that differ in the order of their names only. -/
theorem Source.alike_closure (s : Source) (externals : List Glob.Pattern)
    {requested others : List String} (same : SameNames requested others) :
    (s.closure externals requested).Alike (s.closure externals others) := by
  have roots := same.rootsFor s.contents
  have reached (name : String) := @reachable_congr_roots s externals _ _ roots name
  have standing := @Contents.standing_congr_roots s.contents externals _ _ roots
  refine ⟨rfl, roots, ?_, ?_, ?_, ?_⟩
  · have listed (position : Nat) : s.Lists (s.closure externals requested) position ↔
        s.Lists (s.closure externals others) position := by
      simp only [lists_iff_mem_included, mem_included_worklist, reached]
    rw [declarations_eq_kept, declarations_eq_kept]
    simp only [listed]
  · intro name
    rw [mem_external_closure, mem_external_closure, reached, standing]
  · change List.Forall₂ Reexport.Alike
      (s.contents.neededReexports (s.contents.worklist externals _).forwarded)
      (s.contents.neededReexports (s.contents.worklist externals _).forwarded)
    apply Contents.alike_neededReexports
    rw [worklist_faithful.forwarded_eq, worklist_faithful.forwarded_eq,
      List.mapIdx_eq_zipIdx_map, List.mapIdx_eq_zipIdx_map, List.forall₂_map_left_iff,
      List.forall₂_map_right_iff, List.forall₂_same]
    intro place _ name
    simp only [List.mem_filter, mem_order_worklist, reached, standing]
  · intro name
    rw [mem_missingRoots_closure, mem_missingRoots_closure, reached, standing]

theorem Closure.Alike.declarationNames {c c' : Closure} (alike : c.Alike c') :
    c.declarationNames = c'.declarationNames := by
  rw [Closure.declarationNames, alike.declarations, Closure.declarationNames]

mutual
/-- Trees of the same shape whose closures differ in the order of their names only. -/
def ClosureTree.Alike : ClosureTree → ClosureTree → Prop
  | .node own unresolved followed, .node own' unresolved' followed' =>
      own.Alike own' ∧ unresolved = unresolved' ∧ ClosureTree.AllAlike followed followed'

def ClosureTree.AllAlike : List ClosureTree → List ClosureTree → Prop
  | [], [] => True
  | tree :: rest, tree' :: rest' => tree.Alike tree' ∧ ClosureTree.AllAlike rest rest'
  | [], _ :: _ | _ :: _, [] => False
end

namespace ClosureTree

mutual
theorem Alike.closures : {tree tree' : ClosureTree} → tree.Alike tree' →
    List.Forall₂ Closure.Alike tree.closures tree'.closures
  | .node own _ followed, .node own' _ followed', alike => by
      obtain ⟨first, _, rest⟩ := alike
      exact .cons first (AllAlike.closuresOfAll rest)

theorem AllAlike.closuresOfAll : {trees trees' : List ClosureTree} → AllAlike trees trees' →
    List.Forall₂ Closure.Alike (closuresOfAll trees) (closuresOfAll trees')
  | [], [], _ => .nil
  | tree :: rest, tree' :: rest', alike => by
      rw [ClosureTree.closuresOfAll, ClosureTree.closuresOfAll]
      exact List.rel_append alike.1.closures (AllAlike.closuresOfAll alike.2)
end

variable {tree tree' : ClosureTree}

theorem Alike.exists_iff (alike : tree.Alike tree') {holds : Closure → Prop}
    (kept : ∀ c c', c.Alike c' → (holds c ↔ holds c')) :
    (∃ c ∈ tree.closures, holds c) ↔ ∃ c ∈ tree'.closures, holds c := by
  have related := alike.closures
  generalize tree.closures = cs, tree'.closures = cs' at related
  induction related with
  | nil => rfl
  | cons here _ ih => simp only [List.exists_mem_cons_iff, kept _ _ here, ih]

theorem hasMissingRoots_iff :
    tree.hasMissingRoots = true ↔ ∃ c ∈ tree.closures, c.missingRoots ≠ [] := by
  simp [hasMissingRoots, missingRoots]

theorem Alike.hasMissingRoots (alike : tree.Alike tree') :
    tree.hasMissingRoots = tree'.hasMissingRoots := by
  rw [Bool.eq_iff_iff, hasMissingRoots_iff, hasMissingRoots_iff]
  exact alike.exists_iff fun _ _ same => not_congr same.missingRoots.eq_nil_iff

end ClosureTree

/-! ### Targets -/

structure FollowTarget.Alike (target target' : FollowTarget) : Prop where
  path : target.path = target'.path
  file : target.file = target'.file
  modules : target.modules = target'.modules
  roots : SameNames target.roots target'.roots

theorem alike_addTarget {target target' : FollowTarget} (alike : target.Alike target')
    {targets targets' : List FollowTarget}
    (others : List.Forall₂ FollowTarget.Alike targets targets') :
    List.Forall₂ FollowTarget.Alike (addTarget target targets) (addTarget target' targets') := by
  induction others with
  | nil => exact .cons alike .nil
  | @cons first first' _ _ here rest ih =>
      simp only [addTarget, ← here.file, ← alike.file]
      split
      · refine .cons ⟨here.path, rfl, ?_, here.roots.foldl_addName alike.roots⟩ rest
        rw [here.modules, alike.modules]
      · exact .cons here ih

/-- The same steps and the same pairs in any order. -/
structure Visits.Alike (v v' : Visits) : Prop where
  seen : ∀ pair, pair ∈ v.seen ↔ pair ∈ v'.seen
  steps : v.steps = v'.steps

namespace Visits.Alike

variable {v v' : Visits}

theorem record (alike : v.Alike v') (step : FollowStep) : (v.record step).Alike (v'.record step) :=
  ⟨alike.seen, congrArg (· ++ [step]) alike.steps⟩

theorem mark (alike : v.Alike v') (file : String) {names others : List String}
    (same : SameNames names others) : (v.mark file names).Alike (v'.mark file others) := by
  refine ⟨?_, alike.steps⟩
  intro (other, name)
  rw [FileTree.mem_seen_mark, FileTree.mem_seen_mark, same name, alike.seen]

theorem unseen (alike : v.Alike v') (file : String) {names others : List String}
    (same : SameNames names others) :
    SameNames (v.unseen file names) (v'.unseen file others) := by
  intro name
  rw [FileTree.mem_unseen, FileTree.mem_unseen, same name, alike.seen]

end Visits.Alike

/-- Runs that fail in the same way, or come to related results. -/
inductive RunsAlike {α : Type} (related : α → α → Prop) :
    Except Failure α × Visits → Except Failure α × Visits → Prop
  | error {f : Failure} {v v' : Visits} : v.Alike v' →
      RunsAlike related (.error f, v) (.error f, v')
  | ok {a a' : α} {v v' : Visits} : related a a' → v.Alike v' →
      RunsAlike related (.ok a, v) (.ok a', v')

namespace FileTree

variable {t : FileTree} {extensions : List String} {path : String}

theorem alike_targetOf? {r r' : Reexport} (alike : r.Alike r') :
    Option.Rel FollowTarget.Alike (t.targetOf? extensions path r)
      (t.targetOf? extensions path r') := by
  rw [targetOf?, targetOf?, alike.module]
  cases t.resolveModule path r'.module extensions with
  | none => exact .none
  | some found =>
      refine .some ⟨rfl, rfl, rfl, ?_⟩
      intro origin
      rw [mem_distinct, mem_distinct, List.mem_map, List.mem_map]
      apply exists_congr
      intro name
      rw [← alike.names name]
      apply and_congr_right
      intro member
      rw [alike.originOf name member]

theorem alike_targets {c c' : Closure} (alike : c.Alike c') :
    List.Forall₂ FollowTarget.Alike (t.targets extensions c path)
      (t.targets extensions c' path) := by
  have found : List.Forall₂ FollowTarget.Alike
      (c.reexports.filterMap (t.targetOf? extensions path))
      (c'.reexports.filterMap (t.targetOf? extensions path)) :=
    List.rel_filterMap (fun _ _ same => alike_targetOf? same) alike.reexports
  have added : Relator.LiftFun (List.Forall₂ FollowTarget.Alike)
      (Relator.LiftFun FollowTarget.Alike (List.Forall₂ FollowTarget.Alike))
      (fun targets target => addTarget target targets)
      (fun targets target => addTarget target targets) :=
    fun _ _ others _ _ same => alike_addTarget same others
  exact List.rel_foldl added .nil found

theorem unresolvedModules_eq_of_alike {c c' : Closure} (alike : c.Alike c') :
    t.unresolvedModules extensions c path = t.unresolvedModules extensions c' path := by
  obtain ⟨_, _, _, _, statements, _⟩ := alike
  unfold unresolvedModules
  generalize c.reexports = rs, c'.reexports = rs' at statements
  induction statements with
  | nil => rfl
  | cons same _ ih =>
      rw [List.filter_cons, List.filter_cons, isNone_targetOf?, isNone_targetOf?, same.module]
      split
      · rw [List.map_cons, List.map_cons, ih, same.module]
      · exact ih

/-! ### Runs -/

theorem alike_followTargets
    {visit : String → List String → Visits → Except Failure ClosureTree × Visits}
    (visiting : ∀ path roots roots' v v', SameNames roots roots' → v.Alike v' →
      RunsAlike ClosureTree.Alike (visit path roots v) (visit path roots' v'))
    {targets targets' : List FollowTarget}
    (alike : List.Forall₂ FollowTarget.Alike targets targets') {v v' : Visits}
    (before : v.Alike v') :
    RunsAlike ClosureTree.AllAlike (followTargets visit targets v)
      (followTargets visit targets' v') := by
  induction alike generalizing v v' with
  | nil => exact .ok trivial before
  | @cons target target' rest rest' same _ ih =>
      have roots := before.unseen target.file same.roots
      have first := visiting target.path _ _ _ _ roots before
      simp only [followTargets, ← same.file, ← same.path, ← same.modules, ← roots.isEmpty_eq]
      split
      · exact ih (before.record (.skipping target.path))
      · generalize visit target.path (v.unseen target.file target.roots) v = run at first ⊢
        generalize visit target.path (v'.unseen target.file target'.roots) v' = run' at first ⊢
        cases first with
        | error after => exact .error after
        | @ok nested nested' middle middle' here after =>
            have later := ih after
            dsimp only
            generalize followTargets visit rest middle = run at later ⊢
            generalize followTargets visit rest' middle' = run' at later ⊢
            cases later with
            | error last => exact .error last
            | ok there last => exact .ok ⟨here, there⟩ last

theorem alike_followUpTo {options : ClosureOptions} {n : Nat} {path : String}
    {requested others : List String} (same : SameNames requested others) {v v' : Visits}
    (before : v.Alike v') :
    RunsAlike ClosureTree.Alike (t.followUpTo options n path requested v)
      (t.followUpTo options n path others v') := by
  induction n generalizing path requested others v v' with
  | zero => exact .error before
  | succ n ih =>
      have parsing := (before.record (.parsing path)).mark (t.canonical path) same
      unfold followUpTo
      cases t.readSource path with
      | error f => exact .error parsing
      | ok s =>
          have alike := s.alike_closure options.externals same
          have names : SameNames
              ((s.closure options.externals requested).roots ++
                (s.closure options.externals requested).declarationNames)
              ((s.closure options.externals others).roots ++
                (s.closure options.externals others).declarationNames) := by
            intro name
            rw [List.mem_append, List.mem_append, alike.roots name, alike.declarationNames]
          have seen := parsing.mark (t.canonical path) names
          cases options.followReexports with
          | false => exact .ok ⟨alike, rfl, trivial⟩ seen
          | true =>
              have visiting : ∀ path roots roots' v v', SameNames roots roots' → v.Alike v' →
                  RunsAlike ClosureTree.Alike (t.followUpTo options n path roots v)
                    (t.followUpTo options n path roots' v') :=
                fun _ _ _ _ _ same before => ih same before
              have targets : List.Forall₂ FollowTarget.Alike
                  (t.targets options.moduleExtensions _ path)
                  (t.targets options.moduleExtensions _ path) := alike_targets alike
              have followed := alike_followTargets visiting targets seen
              dsimp only
              rw [if_pos rfl, if_pos rfl]
              generalize followTargets _ _ _ = run at followed ⊢
              generalize followTargets _ _ _ = run' at followed ⊢
              cases followed with
              | error after => exact .error after
              | ok trees after =>
                  exact .ok ⟨alike, unresolvedModules_eq_of_alike alike, trees⟩ after

/-- Requests for the same names are followed in the same steps. They fail in the same way, or have
trees that differ in the order of their names only. -/
theorem alike_closure (t : FileTree) (options : ClosureOptions) (path : String)
    {requested others : List String} (same : SameNames requested others) :
    (t.closure options path requested).2 = (t.closure options path others).2 ∧
      ((∃ f, (t.closure options path requested).1 = .error f ∧
          (t.closure options path others).1 = .error f) ∨
        ∃ tree tree', (t.closure options path requested).1 = .ok tree ∧
          (t.closure options path others).1 = .ok tree' ∧ tree.Alike tree') := by
  have nothing : ({} : Visits).Alike {} := ⟨fun _ => Iff.rfl, rfl⟩
  have runs (n : Nat) : RunsAlike ClosureTree.Alike (t.followUpTo options n path requested {})
      (t.followUpTo options n path others {}) :=
    alike_followUpTo same nothing
  specialize runs ((if options.followReexports then t.followBound else 0) + 1)
  simp only [closure]
  generalize followUpTo _ _ _ _ _ _ = run at runs ⊢
  generalize followUpTo _ _ _ _ _ _ = run' at runs ⊢
  cases runs with
  | error after => exact ⟨after.steps, .inl ⟨_, rfl, rfl⟩⟩
  | ok trees after => exact ⟨after.steps, .inr ⟨_, _, rfl, rfl, trees⟩⟩

end FileTree

open FileTree Command

theorem ending_runClosure_congr (t : FileTree) (a : ClosureArguments) {types others : List String}
    (same : SameNames types others) :
    (runClosure t { a with types }).ending = (runClosure t { a with types := others }).ending := by
  unfold runClosure requestedClosure
  cases t.loadConfig (pathOf t.current) with
  | error f => rfl
  | ok loaded =>
      dsimp only
      cases loaded.config.closureOptions with
      | error f => rfl
      | ok options =>
          have requests : SameNames (types ++ loaded.config.roots)
              (others ++ loaded.config.roots) := by
            intro name
            rw [List.mem_append, List.mem_append, same name]
          have runs := alike_closure t { options with
            followReexports := options.followReexports || a.followReexports } a.file requests
          dsimp only
          generalize t.closure _ _ (types ++ _) = run at runs ⊢
          generalize t.closure _ _ (others ++ _) = run' at runs ⊢
          obtain ⟨result, steps⟩ := run
          obtain ⟨result', steps'⟩ := run'
          obtain ⟨_, ⟨f, rfl, rfl⟩ | ⟨tree, tree', rfl, rfl, alike⟩⟩ := runs
          · rfl
          · exact congrArg (endingOf !·) alike.hasMissingRoots

/-- The order of the roots does not matter. Requests for the same names, in any order and any number
of times, fail in the same way, or they list the same declarations and miss the same roots of the
same files; and a command that makes them ends in the same way. -/
theorem closure_of_same_roots (t : FileTree) (options : ClosureOptions) (path : String)
    {requested others : List String} (same : ∀ name, name ∈ requested ↔ name ∈ others) :
    (∀ f, (t.closure options path requested).1 = .error f ↔
      (t.closure options path others).1 = .error f) ∧
    (∀ tree tree', (t.closure options path requested).1 = .ok tree →
      (t.closure options path others).1 = .ok tree' →
      (∀ file name, (∃ c ∈ tree.closures, t.canonical c.file = file ∧ name ∈ c.declarationNames) ↔
        ∃ c ∈ tree'.closures, t.canonical c.file = file ∧ name ∈ c.declarationNames) ∧
      (∀ file name, t.ReportsMissing tree file name ↔ t.ReportsMissing tree' file name) ∧
      tree.hasMissingRoots = tree'.hasMissingRoots) ∧
    ∀ a : ClosureArguments, (runClosure t { a with types := requested }).ending =
      (runClosure t { a with types := others }).ending := by
  obtain ⟨_, ⟨f, failed, failed'⟩ | ⟨built, built', result, result', alike⟩⟩ :=
    alike_closure t options path same
  · refine ⟨?_, ?_, fun a => ending_runClosure_congr t a same⟩
    · intro g
      rw [failed, failed']
    · intro tree tree' result
      rw [failed] at result
      cases result
  · refine ⟨?_, ?_, fun a => ending_runClosure_congr t a same⟩
    · intro g
      rw [result, result']
      simp
    · intro tree tree' here there
      cases Except.ok.inj (here.symm.trans result)
      cases Except.ok.inj (there.symm.trans result')
      refine ⟨?_, ?_, alike.hasMissingRoots⟩
      · intro file name
        exact alike.exists_iff fun _ _ same => by rw [same.file, same.declarationNames]
      · intro file name
        exact alike.exists_iff fun _ _ same => by rw [same.file, same.missingRoots name]

theorem closure_of_same_roots_shared :
    (∀ name, name ∈ ["Left", "Right"] ↔ name ∈ ["Right", "Left", "Right"]) ∧
    ∃ tree tree',
      (shared.closure { followReexports := true } "index.ts" ["Left", "Right"]).1 = .ok tree ∧
      (shared.closure { followReexports := true } "index.ts" ["Right", "Left", "Right"]).1 =
        .ok tree' ∧
      tree.closures.map Closure.roots ≠ tree'.closures.map Closure.roots ∧
      (∃ c ∈ tree.closures, shared.canonical c.file = "/w/shared.ts" ∧
        "C" ∈ c.declarationNames) ∧
      ∃ c ∈ tree'.closures, shared.canonical c.file = "/w/shared.ts" ∧
        "C" ∈ c.declarationNames := by
  have same : ∀ name, name ∈ ["Left", "Right"] ↔ name ∈ ["Right", "Left", "Right"] := by
    simp [or_comm]
  obtain ⟨tree, result, tree', result', roots, listed⟩ : ∃ tree,
      (shared.closure { followReexports := true } "index.ts" ["Left", "Right"]).1 = .ok tree ∧
      ∃ tree', (shared.closure { followReexports := true } "index.ts"
        ["Right", "Left", "Right"]).1 = .ok tree' ∧
      tree.closures.map Closure.roots ≠ tree'.closures.map Closure.roots ∧
      ∃ c ∈ tree.closures, shared.canonical c.file = "/w/shared.ts" ∧
        "C" ∈ c.declarationNames := by
    decide +kernel
  have ⟨_, alike, _⟩ := closure_of_same_roots shared { followReexports := true } "index.ts" same
  have ⟨declared, _, _⟩ := alike tree tree' result result'
  exact ⟨same, tree, tree', result, result', roots, listed, (declared _ _).mp listed⟩

end TypeClosure

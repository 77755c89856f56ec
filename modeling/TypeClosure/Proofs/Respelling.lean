import Mathlib.Data.List.Forall2
import TypeClosure.Proofs.CrossFile
import TypeClosure.Proofs.Restriction

/-!
A file under two spellings of its path. Both are followed in step: every module that is followed
from one is followed from the other under a path to the same file, so the trees that are built
differ in the paths of their files only.
-/

namespace TypeClosure

namespace Closure

variable {c c' : Closure}

def withoutFile (c : Closure) : Closure := { c with file := "" }

theorem reexports_congr (same : c'.withoutFile = c.withoutFile) : c'.reexports = c.reexports := by
  change c'.withoutFile.reexports = c.reexports
  rw [same]
  rfl

theorem traversed_congr (same : c'.withoutFile = c.withoutFile) :
    c'.roots ++ c'.declarationNames = c.roots ++ c.declarationNames := by
  change c'.withoutFile.roots ++ c'.withoutFile.declarationNames = c.roots ++ c.declarationNames
  rw [same]
  rfl

end Closure

namespace ClosureTree

mutual
/-- A tree without the paths of its files. -/
def withoutFiles : ClosureTree → ClosureTree
  | .node own unresolved followed => .node own.withoutFile unresolved (withoutFilesOfAll followed)

def withoutFilesOfAll : List ClosureTree → List ClosureTree
  | [] => []
  | tree :: rest => tree.withoutFiles :: withoutFilesOfAll rest
end

end ClosureTree

theorem Source.withoutFile_closure_congr {s s' : Source} (same : s'.contents = s.contents)
    (externals : List Glob.Pattern) (requested : List String) :
    (s'.closure externals requested).withoutFile = (s.closure externals requested).withoutFile := by
  rw [closure_eq, closure_eq, same]
  rfl

theorem Source.isRelative_of_mem_reexports_closure {s : Source} {externals : List Glob.Pattern}
    {requested : List String} {r : Reexport}
    (needed : r ∈ (s.closure externals requested).reexports) : isRelative r.module = true := by
  obtain ⟨position, statement, stated, _, rfl⟩ := mem_reexports_closure.mp needed
  change isRelative statement.module = true
  exact s.isRelative_of_mem_reexports (List.mem_of_getElem? stated)

theorem Visits.unseen_congr {v v' : Visits} (same : v.seen = v'.seen) (file : String)
    (names : List String) : v.unseen file names = v'.unseen file names := by
  rw [unseen, unseen, same]

namespace FileTree

variable {t : FileTree} {options : ClosureOptions} {path other : String}

/-- Two paths to one file. -/
def OneFile (t : FileTree) (path other : String) : Prop :=
  ∃ place, t.locate path = .ok place ∧ t.locate other = .ok place ∧ t.FileAt place

theorem OneFile.canonical (one : t.OneFile path other) :
    t.canonical path = t.canonical other := by
  obtain ⟨place, located, located', _⟩ := one
  rw [canonical_of_locate located, canonical_of_locate located']

section Anchored

variable (anchored : t.Anchored)

include anchored

theorem OneFile.readSource (one : t.OneFile path other) :
    (∃ s s', t.readSource path = .ok s ∧ t.readSource other = .ok s' ∧
      s'.contents = s.contents) ∨
    ∃ f f', t.readSource path = .error f ∧ t.readSource other = .error f' := by
  obtain ⟨place, located, located', _⟩ := one
  cases read : t.readSource path with
  | ok s =>
      obtain ⟨s', read', same⟩ := readSource_congr anchored located located' read
      exact .inl ⟨s, s', rfl, read', same⟩
  | error f =>
      cases read' : t.readSource other with
      | error f' => exact .inr ⟨f, f', rfl, rfl⟩
      | ok s' =>
          obtain ⟨s, found, _⟩ := readSource_congr anchored located' located read'
          rw [read] at found
          cases found

variable (plain : ∀ e ∈ options.moduleExtensions, Path.isAbsolute e = false)

include plain

/-- A specifier in a file leads to one file, however its own file is spelled. -/
theorem OneFile.resolveModule (one : t.OneFile path other) {specifier : String}
    (relative : isRelative specifier = true) :
    Option.Rel t.OneFile (t.resolveModule path specifier options.moduleExtensions)
      (t.resolveModule other specifier options.moduleExtensions) := by
  obtain ⟨place, located, located', file⟩ := one
  have places := bind_resolveModule anchored located located' file relative plain
  cases resolved : t.resolveModule path specifier options.moduleExtensions with
  | none =>
      cases resolved' : t.resolveModule other specifier options.moduleExtensions with
      | none => exact .none
      | some found' =>
          obtain ⟨place', there⟩ := placeOfFile?_of_resolveModule resolved'
          rw [resolved, resolved', Option.bind_none, Option.bind_some, there] at places
          cases places
  | some found =>
      obtain ⟨target, there⟩ := placeOfFile?_of_resolveModule resolved
      cases resolved' : t.resolveModule other specifier options.moduleExtensions with
      | none =>
          rw [resolved, resolved', Option.bind_none, Option.bind_some, there] at places
          cases places
      | some found' =>
          rw [resolved, resolved', Option.bind_some, Option.bind_some, there] at places
          obtain ⟨here, isFile⟩ := placeOfFile?_eq_some.mp there
          exact .some ⟨target, here, (placeOfFile?_eq_some.mp places.symm).1, isFile⟩

theorem OneFile.moduleFile? (one : t.OneFile path other) {specifier : String}
    (relative : isRelative specifier = true) :
    t.moduleFile? options.moduleExtensions path specifier =
      t.moduleFile? options.moduleExtensions other specifier := by
  obtain ⟨place, located, located', file⟩ := one
  exact moduleFile?_congr anchored located located' file relative plain

end Anchored

/-! ### Targets -/

/-- Targets that differ in the spelling of their paths only. -/
structure Respelled (t : FileTree) (target target' : FollowTarget) : Prop where
  path : t.OneFile target.path target'.path
  file : target.file = target'.file
  modules : target.modules = target'.modules
  roots : target.roots = target'.roots

theorem respelled_addTarget {target target' : FollowTarget} (same : t.Respelled target target')
    {targets targets' : List FollowTarget}
    (others : List.Forall₂ t.Respelled targets targets') :
    List.Forall₂ t.Respelled (addTarget target targets) (addTarget target' targets') := by
  induction others with
  | nil => exact .cons same .nil
  | @cons first first' _ _ here rest ih =>
      simp only [addTarget, ← here.file, ← same.file]
      split
      · refine .cons ⟨here.path, rfl, ?_, ?_⟩ rest
        · rw [here.modules, same.modules]
        · rw [here.roots, same.roots]
      · exact .cons here ih

section Closures

variable (anchored : t.Anchored)
  (plain : ∀ e ∈ options.moduleExtensions, Path.isAbsolute e = false)
  (one : t.OneFile path other) {c c' : Closure} (same : c'.withoutFile = c.withoutFile)
  (relative : ∀ r ∈ c.reexports, isRelative r.module = true)

include anchored plain one

theorem respelled_targetOf? {r : Reexport} (relative : isRelative r.module = true) :
    Option.Rel t.Respelled (t.targetOf? options.moduleExtensions path r)
      (t.targetOf? options.moduleExtensions other r) := by
  have resolved := one.resolveModule anchored plain relative
  rw [targetOf?, targetOf?]
  generalize t.resolveModule path _ _ = found at resolved ⊢
  generalize t.resolveModule other _ _ = found' at resolved ⊢
  cases resolved with
  | none => exact .none
  | some there => exact .some ⟨there, there.canonical, rfl, rfl⟩

include same relative

theorem respelled_targets :
    List.Forall₂ t.Respelled (t.targets options.moduleExtensions c path)
      (t.targets options.moduleExtensions c' other) := by
  have statements := Closure.reexports_congr same
  have each : List.Forall₂ (fun r r' => r = r' ∧ isRelative r.module = true) c.reexports
      c'.reexports := by
    rw [statements, List.forall₂_same]
    exact fun r needed => ⟨rfl, relative r needed⟩
  have found : List.Forall₂ t.Respelled
      (c.reexports.filterMap (t.targetOf? options.moduleExtensions path))
      (c'.reexports.filterMap (t.targetOf? options.moduleExtensions other)) := by
    refine List.rel_filterMap ?_ each
    rintro r _ ⟨rfl, relative⟩
    exact respelled_targetOf? anchored plain one relative
  have added : Relator.LiftFun (List.Forall₂ t.Respelled)
      (Relator.LiftFun t.Respelled (List.Forall₂ t.Respelled))
      (fun targets target => addTarget target targets)
      (fun targets target => addTarget target targets) :=
    fun _ _ others _ _ same => respelled_addTarget same others
  exact List.rel_foldl added .nil found

theorem unresolvedModules_respelled :
    t.unresolvedModules options.moduleExtensions c path =
      t.unresolvedModules options.moduleExtensions c' other := by
  have statements := Closure.reexports_congr same
  rw [unresolvedModules, unresolvedModules, statements]
  apply congrArg (List.map Reexport.module)
  apply List.filter_congr
  intro r needed
  rw [isNone_targetOf?, isNone_targetOf?, one.moduleFile? anchored plain (relative r needed)]

end Closures

/-! ### Runs -/

/-- Runs that both fail, or come to the same but for the paths of files. -/
inductive RunsRespelled {α β : Type} (erase : α → β) :
    Except Failure α × Visits → Except Failure α × Visits → Prop
  | error {f f' : Failure} {v v' : Visits} : RunsRespelled erase (.error f, v) (.error f', v')
  | ok {a a' : α} {v v' : Visits} : erase a' = erase a → v.seen = v'.seen →
      RunsRespelled erase (.ok a, v) (.ok a', v')

theorem respelled_followTargets
    {visit : String → List String → Visits → Except Failure ClosureTree × Visits}
    (visiting : ∀ path other roots v v', t.OneFile path other → v.seen = v'.seen →
      RunsRespelled ClosureTree.withoutFiles (visit path roots v) (visit other roots v'))
    {targets targets' : List FollowTarget} (same : List.Forall₂ t.Respelled targets targets')
    {v v' : Visits} (before : v.seen = v'.seen) :
    RunsRespelled ClosureTree.withoutFilesOfAll (followTargets visit targets v)
      (followTargets visit targets' v') := by
  induction same generalizing v v' with
  | nil => exact .ok rfl before
  | @cons target target' rest rest' here _ ih =>
      simp only [followTargets, ← here.file, ← here.roots, ← Visits.unseen_congr before]
      split
      · exact ih before
      · have first := visiting _ _ (v.unseen target.file target.roots) _ _ here.path before
        generalize visit target.path _ v = run at first ⊢
        generalize visit target'.path _ v' = run' at first ⊢
        cases first with
        | error => exact .error
        | ok tree middle =>
            have later := ih middle
            dsimp only
            generalize followTargets visit rest _ = run at later ⊢
            generalize followTargets visit rest' _ = run' at later ⊢
            cases later with
            | error => exact .error
            | ok trees last =>
                refine .ok ?_ last
                rw [ClosureTree.withoutFilesOfAll, ClosureTree.withoutFilesOfAll, tree, trees]

theorem respelled_followUpTo (anchored : t.Anchored)
    (plain : ∀ e ∈ options.moduleExtensions, Path.isAbsolute e = false)
    {n : Nat} {path other : String} (one : t.OneFile path other) (roots : List String)
    {v v' : Visits} (before : v.seen = v'.seen) :
    RunsRespelled ClosureTree.withoutFiles (t.followUpTo options n path roots v)
      (t.followUpTo options n other roots v') := by
  induction n generalizing path other roots v v' with
  | zero => exact .error
  | succ n ih =>
      unfold followUpTo
      obtain ⟨s, s', read, read', contents⟩ | ⟨f, f', read, read'⟩ := one.readSource anchored
      · have same := Source.withoutFile_closure_congr contents options.externals roots
        have names := Closure.traversed_congr same
        simp only [read, read', names, ← one.canonical]
        have seen : (((v.record (.parsing path)).mark (t.canonical path) roots).mark
              (t.canonical path) ((s.closure options.externals roots).roots ++
                (s.closure options.externals roots).declarationNames)).seen =
            (((v'.record (.parsing other)).mark (t.canonical path) roots).mark
              (t.canonical path) ((s.closure options.externals roots).roots ++
                (s.closure options.externals roots).declarationNames)).seen := by
          simp only [Visits.mark, Visits.record, before]
        cases options.followReexports with
        | false =>
            refine .ok ?_ seen
            rw [ClosureTree.withoutFiles, ClosureTree.withoutFiles, same]
        | true =>
            have relative : ∀ r ∈ (s.closure options.externals roots).reexports,
                isRelative r.module = true :=
              fun _ needed => Source.isRelative_of_mem_reexports_closure needed
            have followed := respelled_followTargets
              (fun _ _ roots _ _ one before => ih one roots before)
              (respelled_targets anchored plain one same relative) seen
            rw [if_pos rfl, if_pos rfl]
            generalize followTargets _ _ _ = run at followed ⊢
            generalize followTargets _ _ _ = run' at followed ⊢
            cases followed with
            | error => exact .error
            | ok trees after =>
                refine .ok ?_ after
                rw [ClosureTree.withoutFiles, ClosureTree.withoutFiles, same, trees,
                  unresolvedModules_respelled anchored plain one same relative]
      · simp only [read, read']
        exact .error

/-- The spelling of a path does not matter. Under two paths to one file, the closure fails for both
or comes to the same but for the paths of files; and each relative specifier in that file leads
nowhere from both, or to the same file. -/
theorem closure_of_one_file (anchored : t.Anchored)
    (plain : ∀ e ∈ options.moduleExtensions, Path.isAbsolute e = false)
    {path other : String} {place : List String} (located : t.locate path = .ok place)
    (located' : t.locate other = .ok place) (file : t.FileAt place) (roots : List String) :
    (t.closure options path roots).1.toOption.map ClosureTree.withoutFiles =
      (t.closure options other roots).1.toOption.map ClosureTree.withoutFiles ∧
    ∀ specifier, isRelative specifier = true →
      (t.resolveModule path specifier options.moduleExtensions).map t.canonical =
        (t.resolveModule other specifier options.moduleExtensions).map t.canonical := by
  have one : t.OneFile path other := ⟨place, located, located', file⟩
  refine ⟨?_, fun specifier relative => one.moduleFile? anchored plain relative⟩
  have runs (n : Nat) : RunsRespelled ClosureTree.withoutFiles
      (t.followUpTo options n path roots {}) (t.followUpTo options n other roots {}) :=
    respelled_followUpTo anchored plain one roots rfl
  specialize runs ((if options.followReexports then t.followBound else 0) + 1)
  simp only [closure]
  generalize followUpTo _ _ _ _ _ _ = run at runs ⊢
  generalize followUpTo _ _ _ _ _ _ = run' at runs ⊢
  cases runs with
  | error => rfl
  | ok same after => exact congrArg some same.symm

/-- A page with a part from a directory, which takes a label from beside the page. -/
def detour : FileTree where
  current := ["w"]
  entries := [(["w"], .directory), (["w", "src"], .directory),
    (["w", "index.ts"], .file (some
      "export { Piece as Part } from './src/parts'; interface Page { part: Part }")),
    (["w", "src", "parts.ts"], .file (some
      "export { Label } from '../labels'; export interface Piece { label: Label }")),
    (["w", "labels.ts"], .file (some "export interface Label {}"))]

theorem closure_of_one_file_detour :
    ∃ tree tree', (detour.closure { followReexports := true } "index.ts" ["Page"]).1 = .ok tree ∧
      (detour.closure { followReexports := true } "src/.././index.ts" ["Page"]).1 = .ok tree' ∧
      tree.closures.map Closure.file = ["index.ts", "./src/parts.ts", "./src/../labels.ts"] ∧
      tree'.closures.map Closure.file = ["src/.././index.ts", "src/.././src/parts.ts",
        "src/.././src/../labels.ts"] ∧
      tree.withoutFiles = tree'.withoutFiles := by
  obtain ⟨tree, result, tree', result', files, files'⟩ : ∃ tree,
      (detour.closure { followReexports := true } "index.ts" ["Page"]).1 = .ok tree ∧
      ∃ tree', (detour.closure { followReexports := true } "src/.././index.ts" ["Page"]).1 =
        .ok tree' ∧
      tree.closures.map Closure.file = ["index.ts", "./src/parts.ts", "./src/../labels.ts"] ∧
      tree'.closures.map Closure.file = ["src/.././index.ts", "src/.././src/parts.ts",
        "src/.././src/../labels.ts"] := by
    decide +kernel
  have anchored : detour.Anchored := by decide +kernel
  have plain : ∀ e ∈ ({ followReexports := true } : ClosureOptions).moduleExtensions,
      Path.isAbsolute e = false := by decide
  have located : detour.locate "index.ts" = .ok ["w", "index.ts"] := by decide +kernel
  have located' : detour.locate "src/.././index.ts" = .ok ["w", "index.ts"] := by decide +kernel
  have same := (closure_of_one_file anchored plain located located' ⟨_, rfl⟩ ["Page"]).1
  rw [result, result'] at same
  exact ⟨tree, tree', result, result', files, files', Option.some.inj same⟩

/-- With an extension that begins with a slash, what a specifier leads to depends on the spelling
of its own file, and so does the closure. -/
theorem closure_respelled_slashed :
    slashed.locate "a.ts" = .ok ["w", "a.ts"] ∧ slashed.locate "./a.ts" = .ok ["w", "a.ts"] ∧
    slashed.resolveModule "a.ts" ".js" [".ts", "/c.ts"] = none ∧
    slashed.resolveModule "./a.ts" ".js" [".ts", "/c.ts"] = some ".//c.ts" ∧
    ∃ tree tree',
      (slashed.closure { followReexports := true, moduleExtensions := [".ts", "/c.ts"] }
        "a.ts" ["N"]).1 = .ok tree ∧
      (slashed.closure { followReexports := true, moduleExtensions := [".ts", "/c.ts"] }
        "./a.ts" ["N"]).1 = .ok tree' ∧
      tree.withoutFiles ≠ tree'.withoutFiles := by
  obtain ⟨tree, result, tree', result', missed, found⟩ : ∃ tree,
      (slashed.closure { followReexports := true, moduleExtensions := [".ts", "/c.ts"] }
        "a.ts" ["N"]).1 = .ok tree ∧
      ∃ tree', (slashed.closure { followReexports := true, moduleExtensions := [".ts", "/c.ts"] }
        "./a.ts" ["N"]).1 = .ok tree' ∧
      tree.withoutFiles.unresolved = [".js"] ∧ tree'.withoutFiles.unresolved = [] := by
    decide +kernel
  refine ⟨by decide, by decide, by decide +kernel, by decide +kernel, tree, tree', result, result',
    ?_⟩
  intro same
  rw [same, found] at missed
  cases missed

end FileTree

end TypeClosure

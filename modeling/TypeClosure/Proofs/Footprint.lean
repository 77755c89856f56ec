import TypeClosure.Proofs.Termination

/-!
What following reads of a tree. The layout of directories and files is looked at everywhere, but the
text of a file only where the file is parsed.
-/

namespace TypeClosure

def Entry.isDirectory : Entry → Bool
  | .directory => true
  | .file _ => false

namespace FileTree

/-- Trees with the same directories, and with files at the same places. -/
structure SameLayout (t t' : FileTree) : Prop where
  current : t.current = t'.current
  kinds : ∀ place, (t.entryAt? place).map Entry.isDirectory =
    (t'.entryAt? place).map Entry.isDirectory

/-- The files that are parsed in some steps hold the same in both trees. -/
def SameFiles (t t' : FileTree) (steps : List FollowStep) : Prop :=
  ∀ path place, .parsing path ∈ steps → t.locate path = .ok place →
    t.entryAt? place = t'.entryAt? place

variable {t t' : FileTree} {options : ClosureOptions}

theorem SameFiles.mono {steps others : List FollowStep} (same : SameFiles t t' others)
    (fewer : steps ⊆ others) : SameFiles t t' steps :=
  fun path place parsed located => same path place (fewer parsed) located

/-! ### Layouts -/

namespace SameLayout

variable (same : SameLayout t t')

include same

theorem entryAt?_cases (place : List String) :
    (t.entryAt? place = none ∧ t'.entryAt? place = none) ∨
      (t.entryAt? place = some .directory ∧ t'.entryAt? place = some .directory) ∨
      ∃ text text', t.entryAt? place = some (.file text) ∧
        t'.entryAt? place = some (.file text') := by
  have kinds := same.kinds place
  cases here : t.entryAt? place with
  | none =>
      cases there : t'.entryAt? place with
      | none => exact .inl ⟨rfl, rfl⟩
      | some _ => simp [here, there] at kinds
  | some entry =>
      cases there : t'.entryAt? place with
      | none => simp [here, there] at kinds
      | some entry' =>
          cases entry with
          | directory =>
              cases entry' with
              | directory => exact .inr (.inl ⟨rfl, rfl⟩)
              | file _ => simp [here, there, Entry.isDirectory] at kinds
          | file text =>
              cases entry' with
              | directory => simp [here, there, Entry.isDirectory] at kinds
              | file text' => exact .inr (.inr ⟨text, text', rfl, rfl⟩)

theorem isSome_entryAt? (place : List String) :
    (t.entryAt? place).isSome = (t'.entryAt? place).isSome := by
  rw [← Option.isSome_map (f := Entry.isDirectory), same.kinds, Option.isSome_map]

theorem walk_eq (place : List String) (ss : List (List Char)) :
    t.walk place ss = t'.walk place ss := by
  induction ss generalizing place with
  | nil => rfl
  | cons s ss ih =>
      simp only [walk, ih, same.isSome_entryAt?]
      obtain ⟨here, there⟩ | ⟨here, there⟩ | ⟨_, _, here, there⟩ := same.entryAt?_cases place
      · rw [here, there]
      · rw [here, there]
      · rw [here, there]

theorem locate_eq (path : String) : t.locate path = t'.locate path := by
  simp only [locate, same.walk_eq, same.current]

theorem canonical_eq (path : String) : t.canonical path = t'.canonical path := by
  rw [canonical, canonical, same.locate_eq]

theorem isFile_eq (path : String) : t.isFile path = t'.isFile path := by
  unfold isFile find?
  rw [same.locate_eq]
  cases t'.locate path with
  | error fault => rfl
  | ok place =>
      dsimp only
      obtain ⟨here, there⟩ | ⟨here, there⟩ | ⟨_, _, here, there⟩ := same.entryAt?_cases place
      · rw [here, there]
      · rw [here, there]
      · rw [here, there]

theorem targetOf?_eq (extensions : List String) (path : String) (r : Reexport) :
    t.targetOf? extensions path r = t'.targetOf? extensions path r := by
  have files : t.isFile = t'.isFile := funext same.isFile_eq
  have spellings : t.canonical = t'.canonical := funext same.canonical_eq
  rw [targetOf?, targetOf?, resolveModule, resolveModule, files, spellings]

theorem targets_eq (extensions : List String) (c : Closure) (path : String) :
    t.targets extensions c path = t'.targets extensions c path := by
  have found : t.targetOf? extensions path = t'.targetOf? extensions path :=
    funext (same.targetOf?_eq extensions path)
  rw [targets, targets, found]

theorem unresolvedModules_eq (extensions : List String) (c : Closure) (path : String) :
    t.unresolvedModules extensions c path = t'.unresolvedModules extensions c path := by
  simp only [unresolvedModules, same.targetOf?_eq]

theorem anchored (anchored : t.Anchored) : t'.Anchored := by
  intro directory
  rw [← same.locate_eq, ← same.current]
  apply anchored
  obtain ⟨_, there⟩ | ⟨here, _⟩ | ⟨_, _, _, there⟩ := same.entryAt?_cases t.current
  · rw [same.current, directory] at there
    cases there
  · exact here
  · rw [same.current, directory] at there
    cases there

theorem readText_eq {path : String}
    (file : ∀ place, t.locate path = .ok place → t.entryAt? place = t'.entryAt? place) :
    t'.readText path = t.readText path := by
  unfold readText
  rw [← same.locate_eq]
  cases located : t.locate path with
  | error fault => rfl
  | ok place => simp only [bind, Except.bind, file place located]

theorem readSource_eq {path : String}
    (file : ∀ place, t.locate path = .ok place → t.entryAt? place = t'.entryAt? place) :
    t'.readSource path = t.readSource path := by
  rw [readSource, readSource, same.readText_eq file]

end SameLayout

/-! ### Runs -/

/-- A visit that takes back no step. -/
def KeepsSteps (visit : String → List String → Visits → Except Failure ClosureTree × Visits) :
    Prop :=
  ∀ path roots v, v.steps ⊆ (visit path roots v).2.steps

theorem snd_followTargets_of_visit
    {visit : String → List String → Visits → Except Failure ClosureTree × Visits}
    {target : FollowTarget} {rest : List FollowTarget} {v middle : Visits} {nested : ClosureTree}
    (some : v.unseen target.file target.roots ≠ [])
    (visited : visit target.path (v.unseen target.file target.roots) v = (.ok nested, middle)) :
    (followTargets visit (target :: rest) v).2 = (followTargets visit rest middle).2 := by
  simp only [followTargets_cons_of_ne_nil some, visited]
  split
  · next f after ran => rw [ran]
  · next others after ran => rw [ran]

theorem steps_subset_followTargets
    {visit : String → List String → Visits → Except Failure ClosureTree × Visits}
    (keeps : KeepsSteps visit) (targets : List FollowTarget) (v : Visits) :
    v.steps ⊆ (followTargets visit targets v).2.steps := by
  induction targets generalizing v with
  | nil => exact List.Subset.refl _
  | cons target rest ih =>
      by_cases none : v.unseen target.file target.roots = []
      · simp only [followTargets, none, List.isEmpty_nil, if_true]
        have later := ih (v.record (.skipping target.path))
        exact List.Subset.trans (List.subset_append_left _ _) later
      · have first := keeps target.path (v.unseen target.file target.roots) v
        cases visited : visit target.path (v.unseen target.file target.roots) v with
        | mk result middle =>
            rw [visited] at first
            cases result with
            | error f =>
                simp only [followTargets_cons_of_ne_nil none, visited]
                exact first
            | ok nested =>
                rw [snd_followTargets_of_visit none visited]
                exact List.Subset.trans first (ih middle)

theorem snd_followUpTo_of_read (follows : options.followReexports = true) {n : Nat} {path : String}
    {roots : List String} {v : Visits} {s : Source} (read : t.readSource path = .ok s) :
    (t.followUpTo options (n + 1) path roots v).2 =
      (followTargets (t.followUpTo options n)
        (t.targets options.moduleExtensions (s.closure options.externals roots) path)
        (Visit.seen t options ⟨path, roots, v⟩ s)).2 := by
  simp only [followUpTo, read, follows, if_true, Visit.seen, seenWith]
  split
  · next f after ran => rw [ran]
  · next others after ran => rw [ran]

theorem steps_subset_followUpTo {n : Nat} (keeps : KeepsSteps (t.followUpTo options n))
    (path : String) (roots : List String) (v : Visits) :
    v.steps ++ [.parsing path] ⊆ (t.followUpTo options (n + 1) path roots v).2.steps := by
  cases read : t.readSource path with
  | error f =>
      simp only [followUpTo, read]
      exact List.Subset.refl _
  | ok s =>
      cases follows : options.followReexports with
      | false =>
          simp only [followUpTo, read, follows]
          exact List.Subset.refl _
      | true =>
          rw [snd_followUpTo_of_read follows read]
          exact steps_subset_followTargets keeps _ (Visit.seen t options ⟨path, roots, v⟩ s)

theorem keepsSteps_followUpTo (t : FileTree) (options : ClosureOptions) (n : Nat) :
    KeepsSteps (t.followUpTo options n) := by
  intro path roots v
  induction n generalizing path roots v with
  | zero => exact List.Subset.refl _
  | succ n ih =>
      have more := steps_subset_followUpTo ih path roots v
      exact List.Subset.trans (List.subset_append_left _ _) more

/-- A visit that comes to the same, if the files that are parsed on its way hold the same. -/
def AgreesOnFiles (t t' : FileTree)
    (visit visit' : String → List String → Visits → Except Failure ClosureTree × Visits) : Prop :=
  ∀ path roots v, SameFiles t t' (visit path roots v).2.steps →
    visit' path roots v = visit path roots v

theorem followTargets_eq_of_sameFiles
    {visit visit' : String → List String → Visits → Except Failure ClosureTree × Visits}
    (keeps : KeepsSteps visit) (agrees : AgreesOnFiles t t' visit visit')
    {targets : List FollowTarget} {v : Visits}
    (files : SameFiles t t' (followTargets visit targets v).2.steps) :
    followTargets visit' targets v = followTargets visit targets v := by
  induction targets generalizing v with
  | nil => rfl
  | cons target rest ih =>
      by_cases none : v.unseen target.file target.roots = []
      · simp only [followTargets, none, List.isEmpty_nil, if_true] at files ⊢
        exact ih files
      · have here := agrees target.path (v.unseen target.file target.roots) v
        cases visited : visit target.path (v.unseen target.file target.roots) v with
        | mk result middle =>
            rw [visited] at here
            cases result with
            | error f =>
                simp only [followTargets_cons_of_ne_nil none, visited] at files ⊢
                rw [here files]
            | ok nested =>
                rw [snd_followTargets_of_visit none visited] at files
                -- What is parsed for the first target is among what is parsed for all of them.
                have first := here (files.mono (steps_subset_followTargets keeps rest middle))
                simp only [followTargets_cons_of_ne_nil none, first, visited, ih files]

theorem followUpTo_eq_of_sameFiles (same : SameLayout t t') (options : ClosureOptions) (n : Nat) :
    AgreesOnFiles t t' (t.followUpTo options n) (t'.followUpTo options n) := by
  induction n with
  | zero =>
      intro path roots v _
      rfl
  | succ n ih =>
      intro path roots v files
      have keeps := keepsSteps_followUpTo t options n
      have parsed : .parsing path ∈ (t.followUpTo options (n + 1) path roots v).2.steps :=
        steps_subset_followUpTo keeps path roots v (by simp)
      have reads := same.readSource_eq fun place => files path place parsed
      cases read : t.readSource path with
      | error f => simp only [followUpTo, reads, read, same.canonical_eq]
      | ok s =>
          cases follows : options.followReexports with
          | false =>
              simp only [followUpTo, reads, read, follows, Bool.false_eq_true, if_false,
                same.canonical_eq]
          | true =>
              rw [snd_followUpTo_of_read follows read] at files
              have ran := followTargets_eq_of_sameFiles keeps ih files
              simp only [Visit.seen, seenWith, same.canonical_eq, same.targets_eq] at ran
              simp only [followUpTo, reads, read, follows, if_true, same.canonical_eq,
                same.targets_eq, same.unresolvedModules_eq, ran]

/-- Files that are not parsed have no influence. Where two trees have the same directories and
files, and each file that is parsed on the way holds the same in both, the same comes of it, be it
a tree of closures or a failure, by the same steps. -/
theorem closure_eq_of_sameFiles (anchored : t.Anchored) (same : SameLayout t t')
    (options : ClosureOptions) (path : String) (roots : List String)
    (files : SameFiles t t' (t.closure options path roots).2) :
    t'.closure options path roots = t.closure options path roots := by
  -- The bounds on the depth come from all files of a tree, so they may differ; a bound that is
  -- large enough for both trees does not change what either comes to.
  have here := @followUpTo_start_eq t options anchored path roots _
    (Nat.le_max_left t.followBound t'.followBound)
  have there := @followUpTo_start_eq t' options (same.anchored anchored) path roots _
    (Nat.le_max_right t.followBound t'.followBound)
  simp only [closure, here, there] at files ⊢
  rw [followUpTo_eq_of_sameFiles same options _ path roots {} files]

/-- A page with a part from one file, beside a file that none of its names leads to. -/
def cluttered (other : Option String) : FileTree where
  current := ["w"]
  entries := [(["w"], .directory),
    (["w", "index.ts"], .file (some
      "export { Piece as Part } from './parts'; export { Other } from './other';
        interface Page { part: Part }")),
    (["w", "parts.ts"], .file (some "export interface Piece {}")),
    (["w", "other.ts"], .file other)]

theorem sameLayout_cluttered (other other' : Option String) :
    SameLayout (cluttered other) (cluttered other') where
  current := rfl
  kinds := by
    intro place
    simp only [entryAt?, cluttered, List.lookup_cons, List.lookup_nil]
    split
    · rfl
    · cases place == ["w"] <;> cases place == ["w", "index.ts"] <;>
        cases place == ["w", "parts.ts"] <;> cases place == ["w", "other.ts"] <;> rfl

theorem closure_eq_of_sameFiles_cluttered :
    SameFiles (cluttered (some "export interface Other {}")) (cluttered none)
        ((cluttered (some "export interface Other {}")).closure { followReexports := true }
          "index.ts" ["Page"]).2 ∧
      (cluttered none).closure { followReexports := true } "index.ts" ["Page"] =
        (cluttered (some "export interface Other {}")).closure { followReexports := true }
          "index.ts" ["Page"] := by
  have steps : ((cluttered (some "export interface Other {}")).closure { followReexports := true }
      "index.ts" ["Page"]).2 = [.parsing "index.ts", .parsing "./parts.ts"] := by
    decide +kernel
  have files : SameFiles (cluttered (some "export interface Other {}")) (cluttered none)
      [.parsing "index.ts", .parsing "./parts.ts"] := by
    intro path place parsed located
    simp only [List.mem_cons, List.not_mem_nil, or_false, FollowStep.parsing.injEq] at parsed
    cases parsed with
    | inl index =>
        have there : (cluttered (some "export interface Other {}")).locate "index.ts" =
            .ok ["w", "index.ts"] := by
          decide
        rw [index, there] at located
        cases located
        rfl
    | inr parts =>
        have there : (cluttered (some "export interface Other {}")).locate "./parts.ts" =
            .ok ["w", "parts.ts"] := by
          decide
        rw [parts, there] at located
        cases located
        rfl
  rw [← steps] at files
  exact ⟨files, closure_eq_of_sameFiles (by decide +kernel) (sameLayout_cluttered _ _) _ _ _ files⟩

end FileTree

end TypeClosure

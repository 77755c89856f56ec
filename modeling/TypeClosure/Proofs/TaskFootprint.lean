import TypeClosure.Command.Run
import TypeClosure.Proofs.Footprint

/-!
What a task reads of a tree: its configuration and the files that it parses. What a task writes and
how it ends comes from these and from the names in the directories, and from nothing else.
-/

namespace TypeClosure

namespace FileTree

/-- Trees with the same directories, and with files of the same names in them. -/
structure SameShape (t t' : FileTree) : Prop extends SameLayout t t' where
  names : ∀ place, t.names place = t'.names place
  count : t.entries.length = t'.entries.length

variable {t t' : FileTree}

/-- A file that a path names holds the same in both trees. -/
def SameFile (t t' : FileTree) (path : String) : Prop :=
  ∀ place, t.locate path = .ok place → t.entryAt? place = t'.entryAt? place

namespace SameLayout

variable (same : SameLayout t t')

include same

theorem isDirectory_eq (path : String) : t.isDirectory path = t'.isDirectory path := by
  unfold isDirectory find?
  rw [same.locate_eq]
  cases t'.locate path with
  | error fault => rfl
  | ok place =>
      dsimp only
      obtain ⟨here, there⟩ | ⟨here, there⟩ | ⟨_, _, here, there⟩ := same.entryAt?_cases place
      · rw [here, there]
      · rw [here, there]
      · rw [here, there]
        rfl

theorem exists_eq (path : String) : t.exists path = t'.exists path := by
  unfold «exists» find?
  rw [same.locate_eq]
  cases t'.locate path with
  | error fault => rfl
  | ok place => exact same.isSome_entryAt? place

theorem configFile?_eq (directory : String) : t.configFile? directory = t'.configFile? directory := by
  have first (directories : List String) :
      t.firstConfig? directories = t'.firstConfig? directories := by
    induction directories with
    | nil => rfl
    | cons directory above ih => simp only [firstConfig?, same.exists_eq, ih]
  exact first _

theorem loadConfig_eq {directory : String}
    (file : ∀ path ∈ t.configFile? directory, SameFile t t' path) :
    t'.loadConfig directory = t.loadConfig directory := by
  unfold loadConfig
  rw [← same.configFile?_eq]
  cases found : t.configFile? directory with
  | none => rfl
  | some path => simp only [readConfig, same.readText_eq (file path found)]

/-- The bounds on the depth come from all files of a tree, but do not matter. -/
theorem closure_eq (anchored : t.Anchored) {options : ClosureOptions} {path : String}
    {roots : List String} (files : SameFiles t t' (t.closure options path roots).2) :
    t'.closure options path roots = t.closure options path roots := by
  have here := @followUpTo_start_eq t options anchored path roots _
    (Nat.le_max_left t.followBound t'.followBound)
  have there := @followUpTo_start_eq t' options (same.anchored anchored) path roots _
    (Nat.le_max_right t.followBound t'.followBound)
  simp only [closure, here, there] at files ⊢
  rw [followUpTo_eq_of_sameFiles same options _ path roots {} files]

end SameLayout

namespace SameShape

variable (same : SameShape t t')

include same

theorem entries_eq (path : String) : Glob.entries t path = Glob.entries t' path := by
  simp only [Glob.entries, same.locate_eq, same.names]

theorem descend_eq (found : String → List String) (n : Nat) (path : String) :
    Glob.descend t found n path = Glob.descend t' found n path := by
  induction n generalizing path with
  | zero => rfl
  | succ n ih => simp only [Glob.descend, same.isDirectory_eq, same.entries_eq, ih]

theorem leadsOn_eq (path name next : String) :
    Glob.leadsOn t path name next = Glob.leadsOn t' path name next := by
  simp only [Glob.leadsOn, same.isDirectory_eq, same.exists_eq]

theorem expandFrom_eq (directoriesOnly : Bool) : (patterns : List Glob.Pattern) →
    Glob.expandFrom t directoriesOnly patterns = Glob.expandFrom t' directoriesOnly patterns
  | [] => by
      funext path
      simp only [Glob.expandFrom, same.isDirectory_eq]
  | [p] => by
      funext path
      simp only [Glob.expandFrom, same.leadsOn_eq, same.descend_eq, same.isDirectory_eq,
        same.entries_eq, same.count]
  | p :: q :: ps => by
      funext path
      have rest := expandFrom_eq directoriesOnly (q :: ps)
      have further := expandFrom_eq directoriesOnly ps
      simp only [Glob.expandFrom, same.leadsOn_eq, same.descend_eq, same.isDirectory_eq,
        same.entries_eq, same.count, rest, further]

theorem allSourcePaths_eq (patterns : List String) :
    Glob.allSourcePaths t patterns = Glob.allSourcePaths t' patterns := by
  have paths (text : String) : Glob.sourcePaths t text = Glob.sourcePaths t' text := by
    simp only [Glob.sourcePaths, Glob.expand, same.expandFrom_eq, same.isFile_eq]
  simp only [Glob.allSourcePaths, paths]

end SameShape

end FileTree

namespace Command

open FileTree

/-- The file that a step reads. -/
def readBy : FollowStep → Option String
  | .parsing path => some path
  | .skipping _ => none

/-- The paths of the files that a task reads, in its order. -/
def Task.reads (t : FileTree) : Task → List String
  | .closure a =>
      (t.configFile? (pathOf t.current)).toList ++
        match t.loadConfig (pathOf t.current) with
        | .ok loaded => (requestedClosure t a loaded.config).2.filterMap readBy
        | .error _ => []
  | .names a =>
      match Glob.allSourcePaths t a.patterns with
      | .ok paths => paths
      | .error _ => []
  | .init => []

variable {t t' : FileTree}

theorem sameFiles_of_reads {steps : List FollowStep}
    (files : ∀ path ∈ steps.filterMap readBy, SameFile t t' path) : SameFiles t t' steps :=
  fun path place parsed located =>
    files path (List.mem_filterMap.mpr ⟨_, parsed, rfl⟩) place located

theorem requestedClosure_eq (same : SameLayout t t') (anchored : t.Anchored) (a : ClosureArguments)
    {config : Config}
    (files : ∀ path ∈ (requestedClosure t a config).2.filterMap readBy, SameFile t t' path) :
    requestedClosure t' a config = requestedClosure t a config := by
  have read := sameFiles_of_reads files
  unfold requestedClosure at read ⊢
  cases options : config.closureOptions with
  | error f => rfl
  | ok options =>
      simp only [options] at read ⊢
      rw [same.closure_eq anchored read]

theorem runClosure_eq (same : SameLayout t t') (anchored : t.Anchored) (a : ClosureArguments)
    (files : ∀ path ∈ Task.reads t (.closure a), SameFile t t' path) :
    runClosure t' a = { runClosure t a with tree := t' } := by
  simp only [Task.reads, List.forall_mem_append, Option.mem_toList] at files
  have loads := same.loadConfig_eq files.1
  unfold runClosure
  rw [← same.current, loads]
  cases loaded : t.loadConfig (pathOf t.current) with
  | error f => rfl
  | ok config =>
      rw [loaded] at files
      dsimp only
      rw [requestedClosure_eq same anchored a files.2]
      generalize requestedClosure t a config.config = run
      obtain ⟨result, steps⟩ := run
      cases result with
      | error f => rfl
      | ok tree => rfl

theorem runNames_eq (same : SameShape t t') (a : NamesArguments)
    (files : ∀ path ∈ Task.reads t (.names a), SameFile t t' path) :
    runNames t' a = { runNames t a with tree := t' } := by
  simp only [Task.reads] at files
  unfold runNames
  rw [← same.allSourcePaths_eq]
  cases found : Glob.allSourcePaths t a.patterns with
  | error f => rfl
  | ok paths =>
      rw [found] at files
      have listed : listFiles t' paths = listFiles t paths := by
        refine List.map_congr_left ?_
        intro path member
        rw [same.readSource_eq (files path member)]
      cases paths with
      | nil => rfl
      | cons path rest =>
          dsimp only
          rw [listed]

/-- Files that a task does not read have no influence on what it writes and how it ends. -/
theorem Task.run_eq (same : SameShape t t') (anchored : t.Anchored) (task : Task)
    (files : ∀ path ∈ task.reads t, SameFile t t' path) :
    task.run t' = { task.run t with tree := (task.run t').tree } := by
  cases task with
  | closure a =>
      change runClosure t' a = { runClosure t a with tree := (runClosure t' a).tree }
      rw [runClosure_eq same.toSameLayout anchored a files]
  | names a =>
      change runNames t' a = { runNames t a with tree := (runNames t' a).tree }
      rw [runNames_eq same a files]
  | init =>
      change runInit t' = { runInit t with tree := (runInit t').tree }
      simp only [runInit, ← same.exists_eq, ← same.current]
      split
      · rfl
      · rfl

end Command

end TypeClosure

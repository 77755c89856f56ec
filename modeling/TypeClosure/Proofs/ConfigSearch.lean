import Mathlib.Data.List.Chain
import TypeClosure.Config.Search
import TypeClosure.Proofs.FileTree.Components

/-!
Which configuration file a directory has: that of the nearest directory above that holds one, itself
included. A `.git` entry ends the search, but only behind the configuration file beside it.
-/

namespace TypeClosure.FileTree

namespace Path

/-- A path, and behind each path the same one without its last component, as long as there is one to
drop. -/
structure Ascent (path : String) (paths : List String) : Prop where
  starts : paths.head? = some path
  climbs : paths.IsChain fun lower upper =>
    parent? lower = some upper ∧ ∃ last, components lower = components upper ++ [last]
  ends : ∀ top ∈ paths.getLast?,
    parent? top = none ∧ (components top = [] ∨ components top = [.root])

theorem ascent_topmost {path : String} (topmost : parent? path = none) : Ascent path [path] where
  starts := rfl
  climbs := .singleton path
  ends := by
    rintro _ ⟨⟩
    exact ⟨topmost, parent?_eq_none.mp topmost⟩

theorem Ascent.step {path parent : String} {paths : List String} (up : parent? path = some parent)
    (above : Ascent parent paths) : Ascent path (path :: paths) where
  starts := rfl
  climbs := by
    obtain ⟨last, _, eq⟩ := components_parent? up
    refine List.isChain_cons.mpr ⟨fun upper first => ?_, above.climbs⟩
    cases above.starts.symm.trans first
    exact ⟨up, last, eq⟩
  ends := by
    obtain ⟨rest, eq⟩ := List.head?_eq_some_iff.mp above.starts
    intro top last
    refine above.ends top ?_
    rw [eq] at last ⊢
    exact last

/-- The bound on the number of parents is never reached: each has one component less. -/
theorem ascent_ancestorsUpTo {n : Nat} {path : String} (bound : (components path).length ≤ n) :
    Ascent path (ancestorsUpTo n path) := by
  induction n generalizing path with
  | zero =>
      have empty : components path = [] := List.length_eq_zero_iff.mp (Nat.le_zero.mp bound)
      exact ascent_topmost (parent?_eq_none.mpr (.inl empty))
  | succ n ih =>
      rw [ancestorsUpTo]
      cases up : parent? path with
      | none => exact ascent_topmost up
      | some parent =>
          obtain ⟨last, _, eq⟩ := components_parent? up
          rw [eq, List.length_append, List.length_singleton] at bound
          exact .step up (ih (Nat.le_of_succ_le_succ bound))

theorem ascent_ancestors (path : String) : Ascent path (ancestors path) :=
  ascent_ancestorsUpTo (length_components_le path)

end Path

variable {t t' : FileTree} {directories : List String} {path : String}

/-- A directory, given by its path, has an entry with a name. -/
def Holds (t : FileTree) (directory name : String) : Prop :=
  t.exists (Path.join directory name) = true

instance (directory name : String) : Decidable (t.Holds directory name) :=
  inferInstanceAs (Decidable (_ = _))

/-- The first of some directories that holds a configuration file, if the search gets there: no
directory in front of it has a `.git` entry. -/
def Nearest (t : FileTree) (directories : List String) (directory : String) : Prop :=
  ∃ below above, directories = below ++ directory :: above ∧ t.Holds directory configName ∧
    ∀ d ∈ below, ¬t.Holds d configName ∧ ¬t.Holds d ".git"

theorem not_nearest_nil {directory : String} : ¬t.Nearest [] directory := by
  rintro ⟨below, above, eq, _⟩
  exact List.cons_ne_nil _ _ (List.append_eq_nil_iff.mp eq.symm).2

theorem nearest_cons {first directory : String} :
    t.Nearest (first :: directories) directory ↔
      (t.Holds first configName ∧ directory = first) ∨
        (¬t.Holds first configName ∧ ¬t.Holds first ".git" ∧ t.Nearest directories directory) := by
  constructor
  · rintro ⟨below, above, eq, holds, passed⟩
    cases below with
    | nil =>
        cases eq
        exact .inl ⟨holds, rfl⟩
    | cons d below =>
        cases eq
        obtain ⟨⟨unconfigured, inside⟩, passed⟩ := List.forall_mem_cons.mp passed
        exact .inr ⟨unconfigured, inside, below, above, rfl, holds, passed⟩
  · rintro (⟨holds, rfl⟩ | ⟨unconfigured, inside, below, above, rfl, holds, passed⟩)
    · exact ⟨[], directories, rfl, holds, by simp⟩
    · exact ⟨first :: below, above, rfl, holds,
        List.forall_mem_cons.mpr ⟨⟨unconfigured, inside⟩, passed⟩⟩

theorem firstConfig?_eq_some :
    t.firstConfig? directories = some path ↔
      ∃ directory, t.Nearest directories directory ∧ path = Path.join directory configName := by
  induction directories with
  | nil => exact iff_of_false nofun fun ⟨_, nearest, _⟩ => not_nearest_nil nearest
  | cons first above ih =>
      simp only [firstConfig?, nearest_cons, Holds]
      by_cases configured : t.exists (Path.join first configName) = true
      · simpa [configured] using eq_comm
      · by_cases stops : t.exists (Path.join first ".git") = true
        · simp [configured, stops]
        · simpa [configured, stops] using ih

/-- What is above a `.git` entry is not looked at. -/
theorem firstConfig?_append {below : List String} {directory : String}
    (stops : t.Holds directory ".git") (above : List String) :
    t.firstConfig? (below ++ directory :: above) = t.firstConfig? (below ++ [directory]) := by
  induction below with
  | nil =>
      rw [Holds] at stops
      simp only [List.nil_append, firstConfig?, stops, if_true]
  | cons first below ih => simp only [List.cons_append, firstConfig?, ih]

/-- The search sees of a tree which of the directories hold the two entries. -/
theorem firstConfig?_congr
    (same : ∀ d ∈ directories, ∀ name ∈ [configName, ".git"], t'.Holds d name ↔ t.Holds d name) :
    t'.firstConfig? directories = t.firstConfig? directories := by
  induction directories with
  | nil => rfl
  | cons first above ih =>
      obtain ⟨here, rest⟩ := List.forall_mem_cons.mp same
      have config := Bool.eq_iff_iff.mpr (here configName (by simp))
      have git := Bool.eq_iff_iff.mpr (here ".git" (by simp))
      rw [firstConfig?, firstConfig?, config, git, ih rest]

theorem mem_of_nearest {directory : String} (nearest : t.Nearest directories directory) :
    directory ∈ directories := by
  obtain ⟨below, above, rfl, _⟩ := nearest
  simp

theorem loadConfig_of_some {start : String} (found : t.configFile? start = some path) :
    t.loadConfig start = (t.readConfig path).map fun config => ⟨config, true⟩ := by
  rw [loadConfig, found]

theorem loadConfig_eq_default {start : String} :
    t.loadConfig start = .ok {} ↔ t.configFile? start = none := by
  cases found : t.configFile? start with
  | none => simp [loadConfig, found]
  | some path =>
      rw [loadConfig_of_some found]
      cases t.readConfig path with
      | error f => simp [Except.map]
      | ok config => simp [Except.map]

theorem readConfig_congr (same : t'.readText path = t.readText path) :
    t'.readConfig path = t.readConfig path := by
  rw [readConfig, readConfig, same]

/-- The configuration file of a directory is that of the nearest one above, which may have a `.git`
entry beside it. Without one the default configuration is used. Nothing above a directory with a
`.git` entry has an influence. -/
theorem nearest_config_wins (t : FileTree) (start : String) :
    Path.Ascent start (Path.ancestors start) ∧
    (∀ path, t.configFile? start = some path ↔
      ∃ directory, t.Nearest (Path.ancestors start) directory ∧
        path = Path.join directory configName) ∧
    (t.configFile? start = none ↔ ¬∃ directory, t.Nearest (Path.ancestors start) directory) ∧
    (t.loadConfig start = .ok {} ↔ ¬∃ directory, t.Nearest (Path.ancestors start) directory) ∧
    (∀ directory, t.Nearest (Path.ancestors start) directory →
      t.loadConfig start =
        (t.readConfig (Path.join directory configName)).map fun config => ⟨config, true⟩) ∧
    ∀ below directory above, Path.ancestors start = below ++ directory :: above →
      t.Holds directory ".git" → ∀ other : FileTree,
      (∀ d ∈ below ++ [directory], ∀ name ∈ [configName, ".git"],
        other.Holds d name ↔ t.Holds d name) →
      other.configFile? start = t.configFile? start ∧
        ((∀ d ∈ below ++ [directory], other.readText (Path.join d configName) =
            t.readText (Path.join d configName)) →
          other.loadConfig start = t.loadConfig start) := by
  have found (path : String) : t.configFile? start = some path ↔
      ∃ directory, t.Nearest (Path.ancestors start) directory ∧
        path = Path.join directory configName := firstConfig?_eq_some
  have unfound : t.configFile? start = none ↔
      ¬∃ directory, t.Nearest (Path.ancestors start) directory := by
    rw [Option.eq_none_iff_forall_not_mem]
    simp only [Option.mem_def, found]
    exact ⟨fun none ⟨d, nearest⟩ => none _ ⟨d, nearest, rfl⟩,
      fun none path ⟨d, nearest, _⟩ => none ⟨d, nearest⟩⟩
  refine ⟨Path.ascent_ancestors start, found, unfound, loadConfig_eq_default.trans unfound, ?_, ?_⟩
  · intro directory nearest
    exact loadConfig_of_some ((found _).mpr ⟨directory, nearest, rfl⟩)
  · intro below directory above eq stops other same
    have stops' : other.Holds directory ".git" :=
      (same directory (by simp) ".git" (by simp)).mpr stops
    have files : other.configFile? start = t.configFile? start := by
      rw [configFile?, configFile?, eq, firstConfig?_append stops', firstConfig?_append stops]
      exact firstConfig?_congr same
    refine ⟨files, fun texts => ?_⟩
    cases here : t.configFile? start with
    | none =>
        rw [loadConfig_eq_default.mpr here, loadConfig_eq_default.mpr (files.trans here)]
    | some path =>
        rw [loadConfig_of_some here, loadConfig_of_some (files.trans here)]
        rw [configFile?, eq, firstConfig?_append stops] at here
        obtain ⟨d, nearest, rfl⟩ := firstConfig?_eq_some.mp here
        rw [readConfig_congr (texts d (mem_of_nearest nearest))]

/-- A checkout inside a directory that has a configuration file of its own. -/
def checkout : FileTree where
  current := ["home", "repo"]
  entries := [(["home"], .directory), (["home", ".typedepsrc.json"], .file (some "\x7b")),
    (["home", "repo"], .directory), (["home", "repo", ".git"], .directory),
    (["home", "repo", "src"], .directory),
    (["home", "repo", ".typedepsrc.json"], .file (some "\x7b\x7d"))]

/-- The same checkout under an empty directory. -/
def checkoutAlone : FileTree :=
  { checkout with
    entries := checkout.entries.filter (·.1 ≠ ["home", ".typedepsrc.json"]) }

/-- The file beside the `.git` entry is found from a directory that does not exist, whether the one
above, which is broken, is there or not. -/
theorem nearest_config_checkout :
    checkout.configFile? "/home/repo/src/gone" = some "/home/repo/.typedepsrc.json" ∧
      checkout.Holds "/home/repo" ".git" ∧ checkout.Holds "/home" configName ∧
      ¬checkoutAlone.Holds "/home" configName ∧
      checkoutAlone.loadConfig "/home/repo/src/gone" =
        checkout.loadConfig "/home/repo/src/gone" := by
  have stops : checkout.Holds "/home/repo" ".git" := by decide +kernel
  have above : Path.ancestors "/home/repo/src/gone" =
      ["/home/repo/src/gone", "/home/repo/src"] ++ "/home/repo" :: ["/home", "/"] := by
    decide +kernel
  obtain ⟨_, found, _, _, _, apart⟩ := nearest_config_wins checkout "/home/repo/src/gone"
  have file : checkout.configFile? "/home/repo/src/gone" = some "/home/repo/.typedepsrc.json" :=
    (found _).mpr ⟨"/home/repo",
      ⟨_, _, above, by decide +kernel, by decide +kernel⟩, by decide +kernel⟩
  have same := apart _ _ _ above stops checkoutAlone (by decide +kernel)
  exact ⟨file, stops, by decide +kernel, by decide +kernel, same.2 (by decide +kernel)⟩

end TypeClosure.FileTree

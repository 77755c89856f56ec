import TypeClosure.Command.Run
import TypeClosure.Proofs.Demand

/-!
Command lines one after the other. Only `init` writes, and only one file: that of the configuration,
if nothing has its name. What it writes reads back as the configuration that is used without it.
-/

namespace TypeClosure

namespace FileTree

variable {t t' : FileTree} {place : List String} {name text : String}

/-! ### Trees that grow -/

/-- A tree whose current directory is there, under its own path. -/
structure Rooted (t : FileTree) : Prop where
  directory : t.entryAt? t.current = some .directory
  anchored : t.Anchored

instance (t : FileTree) : Decidable t.Rooted :=
  decidable_of_iff (t.entryAt? t.current = some .directory ∧ t.Anchored)
    ⟨fun both => ⟨both.1, both.2⟩, fun rooted => ⟨rooted.directory, rooted.anchored⟩⟩

/-- A tree that keeps all entries of another one. -/
structure Keeps (t t' : FileTree) : Prop where
  current : t'.current = t.current
  entries : ∀ place entry, t.entryAt? place = some entry → t'.entryAt? place = some entry

theorem Keeps.refl (t : FileTree) : Keeps t t := ⟨rfl, fun _ _ found => found⟩

theorem Keeps.grounded (keeps : Keeps t t') (grounded : Grounded t place) : Grounded t' place := by
  induction grounded with
  | root => exact .root
  | @child place name _ directory proper found ih =>
      obtain ⟨entry, here⟩ := Option.isSome_iff_exists.mp found
      exact .child ih (keeps.entries _ _ directory) proper (by simp [keeps.entries _ _ here])

theorem Keeps.rooted (keeps : Keeps t t') (rooted : t.Rooted) : t'.Rooted where
  directory := by
    rw [keeps.current]
    exact keeps.entries _ _ rooted.directory
  anchored := by
    intro _
    rw [keeps.current]
    exact locate_pathOf (keeps.grounded (grounded_current rooted.anchored rooted.directory))

theorem entryAt?_addFile (t : FileTree) (name text : String) (place : List String) :
    (t.addFile name text).entryAt? place = (t.entryAt? place).or
      (if place = t.current ++ [name] then some (.file (some text)) else none) :=
  entryAt?_withFile t (t.current ++ [name]) (some text) place

theorem keeps_addFile (t : FileTree) (name text : String) : Keeps t (t.addFile name text) where
  current := rfl
  entries := by
    intro place entry found
    rw [entryAt?_addFile, found, Option.some_or]

/-! ### The configuration of the current directory -/

/-- Where the configuration of the current directory is. -/
def configPlace (t : FileTree) : List String := t.current ++ [configName]

theorem walk_name (directory : t.entryAt? place = some .directory) (proper : ProperName name) :
    t.walk place [name.toList] = if (t.entryAt? (place ++ [name])).isSome then
      .ok (place ++ [name]) else .error .notFound := by
  simp only [walk, directory, proper.notEmpty, proper.notUp, String.ofList_toList, if_false,
    Bool.false_eq_true]

theorem properName_configName : ProperName configName := ⟨by decide, by decide, by decide⟩

theorem Rooted.locate_join (rooted : t.Rooted) (proper : ProperName name)
    (relative : Path.isAbsolute name = false) :
    t.locate (Path.join (pathOf t.current) name) =
      if (t.entryAt? (t.current ++ [name])).isSome then .ok (t.current ++ [name])
      else .error .notFound := by
  have nonempty : name ≠ "" := by
    rintro rfl
    exact Bool.noConfusion proper.notEmpty
  have here : t.enter (pathOf t.current) = .ok t.current := by
    rw [enter, if_neg (pathOf_ne_empty _)]
    exact rooted.anchored rooted.directory
  have there : t.locate (Path.join (pathOf t.current) name) =
      t.enter (Path.join (pathOf t.current) name) := by
    rw [enter, if_neg (join_ne_empty _ relative nonempty)]
  rw [there, enter_join _ relative nonempty, here, segments_of_noSlash proper.noSlash]
  exact walk_name rooted.directory proper

theorem Rooted.exists_config (rooted : t.Rooted) :
    t.exists (Path.join (pathOf t.current) configName) = (t.entryAt? t.configPlace).isSome := by
  rw [«exists», find?, rooted.locate_join properName_configName rfl]
  cases found : t.entryAt? (t.current ++ [configName]) with
  | none => simp [configPlace, found]
  | some entry => simp [configPlace, found]

theorem Rooted.readText_config (rooted : t.Rooted)
    (found : t.entryAt? t.configPlace = some (.file (some text))) :
    t.readText (Path.join (pathOf t.current) configName) = .ok text := by
  have located := rooted.locate_join properName_configName rfl
  rw [← configPlace, found] at located
  exact readText_eq_ok.mpr ⟨t.configPlace, located, found⟩

/-- The configuration of the current directory comes from the file that is in it. -/
theorem Rooted.loadConfig_eq (rooted : t.Rooted) (found : (t.entryAt? t.configPlace).isSome) :
    t.loadConfig (pathOf t.current) =
      (t.readConfig (Path.join (pathOf t.current) configName)).map fun config =>
        ⟨config, true⟩ := by
  have first (n : Nat) (path : String) : ∃ above, Path.ancestorsUpTo n path = path :: above := by
    cases n with
    | zero => exact ⟨[], rfl⟩
    | succ n =>
        rw [Path.ancestorsUpTo]
        cases Path.parent? path with
        | none => exact ⟨_, rfl⟩
        | some parent => exact ⟨_, rfl⟩
  obtain ⟨above, eq⟩ := first (pathOf t.current).length (pathOf t.current)
  rw [loadConfig, configFile?, Path.ancestors, eq, firstConfig?, rooted.exists_config, found]
  rfl

/-- The text of the configuration that is used when there is none reads back as that. -/
theorem ofJson_defaultText : Config.ofJson Config.defaultText = .ok {} := by
  obtain ⟨config, read, rfl⟩ :
      ∃ config, Config.ofJson Config.defaultText = .ok config ∧ config = {} := by
    decide +kernel
  exact read

theorem Rooted.loadConfig_default (rooted : t.Rooted)
    (found : t.entryAt? t.configPlace = some (.file (some Config.defaultText))) :
    t.loadConfig (pathOf t.current) = .ok ⟨{}, true⟩ := by
  rw [rooted.loadConfig_eq (by simp [found]), readConfig, rooted.readText_config found]
  simp only [ofJson_defaultText]
  rfl

end FileTree

namespace Command

open FileTree

variable {t : FileTree} {words : List String}

/-! ### One command line -/

/-- Whether a command line is read as `init`. -/
def isInit (words : List String) : Bool :=
  match Request.read words with
  | .ok (.perform .init) => true
  | _ => false

theorem isInit_iff : isInit words = true ↔ Request.read words = .ok (.perform .init) := by
  unfold isInit
  split
  · next read => exact iff_of_true rfl read
  · next other => exact iff_of_false Bool.false_ne_true other

theorem tree_run_of_ne_init {task : Task} (other : task ≠ .init) : (task.run t).tree = t := by
  cases task with
  | closure a =>
      change (runClosure t a).tree = t
      unfold runClosure
      split
      · rfl
      · dsimp only
        split
        · rfl
        · rfl
  | names a =>
      change (runNames t a).tree = t
      unfold runNames
      split
      · rfl
      · rfl
      · rfl
  | init => contradiction

theorem tree_respond_of_not_init (other : isInit words = false) :
    (respond t words).tree t = t := by
  unfold respond
  split
  · next task read =>
      apply tree_run_of_ne_init
      rintro rfl
      rw [isInit_iff.mpr read] at other
      contradiction
  · rfl
  · rfl
  · rfl
  · rfl

theorem respond_init (init : isInit words = true) : respond t words = .performed (runInit t) := by
  rw [respond, isInit_iff.mp init]
  rfl

theorem runInit_of_none (rooted : t.Rooted) (free : t.entryAt? t.configPlace = none) :
    (runInit t).ending = .success ∧
      (runInit t).tree = t.addFile configName Config.defaultText := by
  simp only [runInit, rooted.exists_config, free, Option.isSome_none, Bool.false_eq_true, if_false,
    and_self]

theorem runInit_of_some (rooted : t.Rooted) (taken : (t.entryAt? t.configPlace).isSome) :
    (runInit t).ending = .failure ∧ (runInit t).tree = t := by
  simp only [runInit, rooted.exists_config, taken, if_true, and_self]

/-- A command line leaves the tree as it is, unless it is the first `init`. -/
theorem tree_respond (rooted : t.Rooted) (words : List String) :
    (respond t words).tree t =
      if isInit words = true ∧ t.entryAt? t.configPlace = none then
        t.addFile configName Config.defaultText
      else t := by
  cases init : isInit words with
  | false => simp [tree_respond_of_not_init init]
  | true =>
      rw [respond_init init]
      cases found : t.entryAt? t.configPlace with
      | none => simp [Response.tree, runInit_of_none rooted found]
      | some entry => simp [Response.tree, runInit_of_some rooted (by simp [found])]

/-! ### Sessions -/

/-- The tree after command lines, one after the other. -/
def afterAll (t : FileTree) (lines : List (List String)) : FileTree :=
  lines.foldl (fun t words => (respond t words).tree t) t

/-- A session adds a configuration if one of its lines is `init` and nothing has that name, and
nothing else. -/
theorem afterAll_eq (rooted : t.Rooted) (lines : List (List String)) :
    afterAll t lines =
      if lines.any isInit = true ∧ t.entryAt? t.configPlace = none then
        t.addFile configName Config.defaultText
      else t := by
  induction lines generalizing t with
  | nil => simp [afterAll]
  | cons words lines ih =>
      change afterAll ((respond t words).tree t) lines = _
      rw [tree_respond rooted]
      by_cases created : isInit words = true ∧ t.entryAt? t.configPlace = none
      · -- From here on the name is taken.
        have taken : (t.addFile configName Config.defaultText).entryAt? t.configPlace ≠ none := by
          simp [entryAt?_addFile, configPlace]
        rw [if_pos created, ih ((keeps_addFile t _ _).rooted rooted), if_neg fun both => taken both.2,
          if_pos ⟨by rw [List.any_cons, created.1, Bool.true_or], created.2⟩]
      · rw [if_neg created, ih rooted]
        simp only [List.any_cons, Bool.or_eq_true, or_and_right, created, false_or]

theorem keeps_afterAll (rooted : t.Rooted) (lines : List (List String)) :
    Keeps t (afterAll t lines) := by
  rw [afterAll_eq rooted]
  split
  · exact keeps_addFile t _ _
  · exact .refl t

/-- Only `init` writes, and only once. Whatever command lines are run, the entries that there were
stay as they are, and only the configuration of the current directory may have been added, with the
default text; it is there if and only if one of the lines is `init`, unless something had its name
before. The next line leaves the tree as it is, unless it is `init` and nothing has that name: then
it succeeds. An `init` that finds the name taken fails. Once the configuration has been written, the
settings come from it, and are those that are used without one. -/
theorem only_init_writes (rooted : t.Rooted) (lines : List (List String)) :
    (Keeps t (afterAll t lines) ∧
      ∀ place entry, (afterAll t lines).entryAt? place = some entry →
        t.entryAt? place = some entry ∨
          place = t.configPlace ∧ entry = .file (some Config.defaultText)) ∧
    (t.entryAt? t.configPlace = none →
      (lines.any isInit = true ↔
        (afterAll t lines).entryAt? t.configPlace = some (.file (some Config.defaultText))) ∧
      (lines.any isInit = true →
        (afterAll t lines).loadConfig (pathOf t.current) = .ok ⟨{}, true⟩)) ∧
    ∀ words,
      (isInit words = false → (respond (afterAll t lines) words).tree (afterAll t lines) =
        afterAll t lines) ∧
      (isInit words = true → ∃ o, respond (afterAll t lines) words = .performed o ∧
        ((afterAll t lines).entryAt? t.configPlace = none →
          o.ending = .success ∧
            o.tree = (afterAll t lines).addFile configName Config.defaultText) ∧
        ((afterAll t lines).entryAt? t.configPlace ≠ none →
          o.ending = .failure ∧ o.tree = afterAll t lines)) := by
  have keeps := keeps_afterAll rooted lines
  have rooted' := keeps.rooted rooted
  have place : (afterAll t lines).configPlace = t.configPlace := by
    rw [configPlace, keeps.current, configPlace]
  refine ⟨⟨keeps, ?_⟩, ?_, ?_⟩
  · intro place entry found
    rw [afterAll_eq rooted] at found
    split at found
    · rw [entryAt?_addFile, Option.or_eq_some_iff] at found
      obtain before | ⟨_, added⟩ := found
      · exact .inl before
      · rw [Option.ite_none_right_eq_some] at added
        exact .inr ⟨added.1, (Option.some.inj added.2).symm⟩
    · exact .inl found
  · intro free
    have written : lines.any isInit = true ↔
        (afterAll t lines).entryAt? t.configPlace = some (.file (some Config.defaultText)) := by
      rw [afterAll_eq rooted]
      split
      · next created =>
          refine iff_of_true created.1 ?_
          rw [entryAt?_addFile, free, Option.none_or]
          exact if_pos rfl
      · next kept =>
          refine iff_of_false (fun some => kept ⟨some, free⟩) ?_
          rw [free]
          exact fun same => Option.some_ne_none _ same.symm
    refine ⟨written, ?_⟩
    intro created
    rw [← keeps.current]
    exact rooted'.loadConfig_default (place ▸ written.mp created)
  · intro words
    refine ⟨tree_respond_of_not_init, ?_⟩
    intro init
    refine ⟨_, respond_init init, ?_, ?_⟩
    · intro free
      exact runInit_of_none rooted' (place ▸ free)
    · intro taken
      exact runInit_of_some rooted' (place ▸ Option.isSome_iff_ne_none.mpr taken)

/-- A directory without a configuration. -/
def unconfigured : FileTree where
  current := ["w"]
  entries := [(["w"], .directory), (["w", "a.ts"], .file (some "export interface A { b: B }")),
    (["w", "b.ts"], .file none)]

def unconfiguredLines : List (List String) :=
  [["closure", "a.ts", "-t", "Nope"], ["init", "here"], ["names", "a.ts", "b.ts"], ["init"],
    ["help", "init"]]

theorem only_init_writes_unconfigured :
    let after := afterAll unconfigured unconfiguredLines
    after.entryAt? ["w", ".typedepsrc.json"] = some (.file (some Config.defaultText)) ∧
      after.entryAt? ["w", "b.ts"] = some (.file none) ∧
      after.loadConfig "/w" = .ok ⟨{}, true⟩ ∧
      ∃ o, respond after ["init"] = .performed o ∧ o.ending = .failure ∧ o.tree = after := by
  intro after
  obtain ⟨⟨keeps, _⟩, written, next⟩ :=
    only_init_writes (t := unconfigured) (by decide +kernel) unconfiguredLines
  obtain ⟨created, loaded⟩ := written (by decide +kernel)
  have present := created.mp (by decide +kernel)
  obtain ⟨o, performed, _, again⟩ := (next ["init"]).2 (by decide +kernel)
  refine ⟨present, keeps.entries _ _ (by decide +kernel), loaded (by decide +kernel), o, performed,
    again ?_⟩
  rw [present]
  exact Option.some_ne_none _

end Command

end TypeClosure

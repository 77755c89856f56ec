import Mathlib.Data.List.Induction
import TypeClosure.Proofs.Spelling

/-! The files that a closure is followed to, and the names that are demanded of them. -/

namespace TypeClosure

/-- One of some targets is a file of which a name is demanded. -/
def Asks (targets : List FollowTarget) (file name : String) : Prop :=
  ∃ target ∈ targets, target.file = file ∧ name ∈ target.roots

theorem asks_cons {target : FollowTarget} {rest : List FollowTarget} {file name : String} :
    Asks (target :: rest) file name ↔
      (target.file = file ∧ name ∈ target.roots) ∨ Asks rest file name := by
  simp [Asks]

theorem asks_addTarget {target : FollowTarget} {targets : List FollowTarget}
    {file name : String} :
    Asks (addTarget target targets) file name ↔
      (target.file = file ∧ name ∈ target.roots) ∨ Asks targets file name := by
  induction targets with
  | nil => exact asks_cons
  | cons first rest ih =>
      unfold addTarget
      split
      · next same =>
          rw [asks_cons, asks_cons, mem_foldl_addName, and_or_left, ← same, or_comm (b := _ ∧ _),
            or_assoc]
      · rw [asks_cons, asks_cons, ih, or_left_comm]

theorem asks_foldl_addTarget {added targets : List FollowTarget} {file name : String} :
    Asks (added.foldl (fun ts target => addTarget target ts) targets) file name ↔
      Asks added file name ∨ Asks targets file name := by
  induction added generalizing targets with
  | nil => simp [Asks]
  | cons first rest ih =>
      rw [List.foldl_cons, ih, asks_addTarget, asks_cons, or_left_comm, or_assoc]

theorem forall_addTarget (holds : String → String → Prop) {target : FollowTarget}
    {targets : List FollowTarget} (new : holds target.path target.file)
    (old : ∀ other ∈ targets, holds other.path other.file) :
    ∀ other ∈ addTarget target targets, holds other.path other.file := by
  induction targets with
  | nil => simpa [addTarget] using new
  | cons first rest ih =>
      rw [List.forall_mem_cons] at old
      unfold addTarget
      split
      · exact List.forall_mem_cons.mpr ⟨old.1, old.2⟩
      · exact List.forall_mem_cons.mpr ⟨old.1, ih old.2⟩

theorem forall_foldl_addTarget (holds : String → String → Prop)
    {added targets : List FollowTarget} (new : ∀ other ∈ added, holds other.path other.file)
    (old : ∀ other ∈ targets, holds other.path other.file) :
    ∀ other ∈ added.foldl (fun ts target => addTarget target ts) targets,
      holds other.path other.file := by
  induction added generalizing targets with
  | nil => exact old
  | cons first rest ih =>
      rw [List.forall_mem_cons] at new
      exact ih new.2 (forall_addTarget holds new.1 old)

theorem nodup_addName {names : List String} {name : String} (nodup : names.Nodup) :
    (addName names name).Nodup := by
  unfold addName
  split
  · exact nodup
  · next fresh =>
      refine List.nodup_append.mpr ⟨nodup, by simp, ?_⟩
      intro other member added isAdded same
      rw [same, List.mem_singleton.mp isAdded] at member
      exact fresh member

theorem nodup_foldl_addName {names added : List String} (nodup : names.Nodup) :
    (added.foldl addName names).Nodup := by
  induction added generalizing names with
  | nil => exact nodup
  | cons first rest ih => exact ih (nodup_addName nodup)

theorem nodup_distinct (names : List String) : (distinct names).Nodup :=
  nodup_foldl_addName List.nodup_nil

theorem nodup_roots_addTarget {target : FollowTarget} {targets : List FollowTarget}
    (new : target.roots.Nodup) (old : ∀ other ∈ targets, other.roots.Nodup) :
    ∀ other ∈ addTarget target targets, other.roots.Nodup := by
  induction targets with
  | nil => simpa [addTarget] using new
  | cons first rest ih =>
      rw [List.forall_mem_cons] at old
      unfold addTarget
      split
      · exact List.forall_mem_cons.mpr ⟨nodup_foldl_addName old.1, old.2⟩
      · exact List.forall_mem_cons.mpr ⟨old.1, ih old.2⟩

theorem nodup_roots_foldl_addTarget {added targets : List FollowTarget}
    (new : ∀ other ∈ added, other.roots.Nodup) (old : ∀ other ∈ targets, other.roots.Nodup) :
    ∀ other ∈ added.foldl (fun ts target => addTarget target ts) targets, other.roots.Nodup := by
  induction added generalizing targets with
  | nil => exact old
  | cons first rest ih =>
      rw [List.forall_mem_cons] at new
      exact ih new.2 (nodup_roots_addTarget new.1 old)

/-! ### Groups -/

theorem map_file_addTarget {target : FollowTarget} {targets : List FollowTarget} :
    (addTarget target targets).map FollowTarget.file =
      addName (targets.map FollowTarget.file) target.file := by
  induction targets with
  | nil => simp [addTarget, addName]
  | cons first rest ih =>
      unfold addTarget
      split
      · next same => simp [addName, same]
      · next other =>
          rw [List.map_cons, ih]
          simp only [addName, List.map_cons, List.mem_cons, Ne.symm other, false_or]
          split
          · rfl
          · rfl

theorem map_file_foldl_addTarget {added targets : List FollowTarget} :
    (added.foldl (fun ts target => addTarget target ts) targets).map FollowTarget.file =
      (added.map FollowTarget.file).foldl addName (targets.map FollowTarget.file) := by
  induction added generalizing targets with
  | nil => rfl
  | cons first rest ih =>
      rw [List.foldl_cons, ih, map_file_addTarget, List.map_cons, List.foldl_cons]

/-- A target that is added joins the one with its file, or comes after all others. -/
theorem mem_addTarget {added target : FollowTarget} {targets : List FollowTarget}
    (apart : (targets.map FollowTarget.file).Nodup) (member : target ∈ addTarget added targets) :
    (target ∈ targets ∧ target.file ≠ added.file) ∨
      (∃ old ∈ targets, old.file = added.file ∧ target =
        { old with
          modules := added.modules.foldl addName old.modules
          roots := added.roots.foldl addName old.roots }) ∨
      (added.file ∉ targets.map FollowTarget.file ∧ target = added) := by
  induction targets with
  | nil => exact .inr (.inr ⟨List.not_mem_nil, List.mem_singleton.mp member⟩)
  | cons first rest ih =>
      rw [List.map_cons, List.nodup_cons] at apart
      unfold addTarget at member
      split at member
      · next same =>
          cases List.mem_cons.mp member with
          | inl here => exact .inr (.inl ⟨first, List.mem_cons_self, same, here⟩)
          | inr later =>
              refine .inl ⟨List.mem_cons_of_mem _ later, ?_⟩
              intro again
              exact apart.1 (List.mem_map.mpr ⟨target, later, again.trans same.symm⟩)
      · next other =>
          cases List.mem_cons.mp member with
          | inl here =>
              rw [here]
              exact .inl ⟨List.mem_cons_self, other⟩
          | inr later =>
              obtain ⟨old, different⟩ | ⟨old, found, joined⟩ | ⟨fresh, eq⟩ := ih apart.2 later
              · exact .inl ⟨List.mem_cons_of_mem _ old, different⟩
              · exact .inr (.inl ⟨old, List.mem_cons_of_mem _ found, joined⟩)
              · refine .inr (.inr ⟨?_, eq⟩)
                rw [List.map_cons, List.mem_cons, not_or]
                exact ⟨Ne.symm other, fresh⟩

theorem foldl_addName_distinct (names added : List String) :
    added.foldl addName (distinct names) = distinct (names ++ added) := by
  rw [distinct, distinct, List.foldl_append]

theorem addName_of_mem {names : List String} {name : String} (member : name ∈ names) :
    addName names name = names :=
  if_pos member

theorem distinct_foldl_addName (names added : List String) :
    (distinct added).foldl addName names = added.foldl addName names := by
  induction added using List.reverseRecOn with
  | nil => rfl
  | append_singleton rest last ih =>
      have step : distinct (rest ++ [last]) = addName (distinct rest) last :=
        List.foldl_append
      rw [step, List.foldl_append, List.foldl_cons, List.foldl_nil]
      by_cases member : last ∈ distinct rest
      · have added : last ∈ rest.foldl addName names :=
          mem_foldl_addName.mpr (.inr (mem_distinct.mp member))
        rw [addName_of_mem member, addName_of_mem added, ih]
      · rw [addName, if_neg member, List.foldl_append, ih]
        rfl

theorem distinct_of_nodup {names : List String} (nodup : names.Nodup) : distinct names = names := by
  induction names using List.reverseRecOn with
  | nil => rfl
  | append_singleton rest last ih =>
      obtain ⟨apart, _, new⟩ := List.nodup_append.mp nodup
      have step : distinct (rest ++ [last]) = addName (distinct rest) last :=
        List.foldl_append
      rw [step, ih apart, addName, if_neg]
      exact fun member => new last member last List.mem_cons_self rfl

theorem distinct_flatMap_distinct {α : Type} (names : α → List String) (l : List α) :
    distinct (l.flatMap fun a => distinct (names a)) = distinct (l.flatMap names) := by
  induction l using List.reverseRecOn with
  | nil => rfl
  | append_singleton rest last ih =>
      rw [List.flatMap_append, List.flatMap_append, ← foldl_addName_distinct,
        ← foldl_addName_distinct, ih, List.flatMap_singleton, List.flatMap_singleton,
        distinct_foldl_addName]

/-- The modules and roots of a target are those of all that have been added with its file. -/
def Gathers (added targets : List FollowTarget) : Prop :=
  ∀ target ∈ targets,
    target.modules =
      distinct ((added.filter (·.file = target.file)).flatMap FollowTarget.modules) ∧
    target.roots = distinct ((added.filter (·.file = target.file)).flatMap FollowTarget.roots)

/-- A target that names no module and no root twice. -/
def Apart (target : FollowTarget) : Prop :=
  distinct target.modules = target.modules ∧ distinct target.roots = target.roots

theorem Gathers.addTarget {before targets : List FollowTarget} {added : FollowTarget}
    (gathers : Gathers before targets)
    (files : targets.map FollowTarget.file = distinct (before.map FollowTarget.file))
    (own : Apart added) :
    Gathers (before ++ [added]) (addTarget added targets) := by
  have apart : (targets.map FollowTarget.file).Nodup := by
    rw [files]
    exact nodup_distinct _
  intro target member
  rw [List.filter_append, List.flatMap_append, List.flatMap_append]
  obtain ⟨old, other⟩ | ⟨old, found, same, rfl⟩ | ⟨fresh, rfl⟩ := mem_addTarget apart member
  · have ⟨modules, roots⟩ := gathers target old
    simp [← modules, ← roots, Ne.symm other]
  · have ⟨modules, roots⟩ := gathers old found
    simp [modules, roots, foldl_addName_distinct, same]
  · have none : before.filter (·.file = target.file) = [] := by
      rw [files, mem_distinct] at fresh
      rw [List.filter_eq_nil_iff]
      intro earlier member same
      exact fresh (List.mem_map.mpr ⟨earlier, member, of_decide_eq_true same⟩)
    simp [none, own.1, own.2]

theorem gathers_foldl_addTarget {before added targets : List FollowTarget}
    (gathers : Gathers before targets)
    (files : targets.map FollowTarget.file = distinct (before.map FollowTarget.file))
    (own : ∀ target ∈ added, Apart target) :
    Gathers (before ++ added) (added.foldl (fun ts target => addTarget target ts) targets) := by
  induction added generalizing before targets with
  | nil => simpa using gathers
  | cons first rest ih =>
      rw [List.forall_mem_cons] at own
      have step := gathers.addTarget files own.1
      rw [List.foldl_cons, List.append_cons]
      refine ih step ?_ own.2
      rw [map_file_addTarget, files, List.map_append, List.map_singleton, distinct, distinct,
        List.foldl_append]
      rfl

namespace FileTree

variable {t : FileTree} {extensions : List String} {c : Closure} {path : String}

theorem targetOf?_eq_some {r : Reexport} {target : FollowTarget} :
    t.targetOf? extensions path r = some target ↔
      ∃ found, t.resolveModule path r.module extensions = some found ∧
        target = ⟨found, t.canonical found, [r.module], distinct (r.names.map r.originOf)⟩ := by
  rw [targetOf?, Option.map_eq_some_iff]
  simp only [eq_comm]

theorem moduleFile?_eq_some {module file : String} :
    t.moduleFile? extensions path module = some file ↔
      ∃ found, t.resolveModule path module extensions = some found ∧ t.canonical found = file :=
  Option.map_eq_some_iff

theorem isNone_targetOf? {r : Reexport} :
    (t.targetOf? extensions path r).isNone = (t.moduleFile? extensions path r.module).isNone := by
  rw [targetOf?, moduleFile?, Option.isNone_map, Option.isNone_map]

/-- The names that are demanded of a file are the origins of those that statements take from it. -/
theorem asks_targets {file origin : String} :
    Asks (t.targets extensions c path) file origin ↔
      ∃ r ∈ c.reexports, ∃ name ∈ r.names,
        t.moduleFile? extensions path r.module = some file ∧ r.originOf name = origin := by
  rw [targets, asks_foldl_addTarget]
  have none : ¬ Asks [] file origin := by
    rintro ⟨_, member, _⟩
    exact List.not_mem_nil member
  simp only [none, or_false]
  constructor
  · rintro ⟨target, member, same, asked⟩
    obtain ⟨r, needed, found⟩ := List.mem_filterMap.mp member
    obtain ⟨path', resolved, rfl⟩ := targetOf?_eq_some.mp found
    obtain ⟨name, forwarded, rfl⟩ := List.mem_map.mp (mem_distinct.mp asked)
    exact ⟨r, needed, name, forwarded, moduleFile?_eq_some.mpr ⟨path', resolved, same⟩, rfl⟩
  · rintro ⟨r, needed, name, forwarded, found, rfl⟩
    obtain ⟨path', resolved, same⟩ := moduleFile?_eq_some.mp found
    refine ⟨_, List.mem_filterMap.mpr ⟨r, needed, targetOf?_eq_some.mpr ⟨path', resolved, rfl⟩⟩,
      same, ?_⟩
    exact mem_distinct.mpr (List.mem_map_of_mem forwarded)

theorem file_of_mem_targets {target : FollowTarget}
    (member : target ∈ t.targets extensions c path) : target.file = t.canonical target.path := by
  refine forall_foldl_addTarget (fun path file => file = t.canonical path) ?_ ?_ target member
  · intro other member
    obtain ⟨r, _, found⟩ := List.mem_filterMap.mp member
    obtain ⟨path', _, rfl⟩ := targetOf?_eq_some.mp found
    rfl
  · intro other member
    exact absurd member List.not_mem_nil

theorem nodup_roots_of_mem_targets {target : FollowTarget}
    (member : target ∈ t.targets extensions c path) : target.roots.Nodup := by
  apply nodup_roots_foldl_addTarget _ _ target member
  · intro other member
    obtain ⟨r, _, found⟩ := List.mem_filterMap.mp member
    obtain ⟨path', _, rfl⟩ := targetOf?_eq_some.mp found
    exact nodup_distinct _
  · intro other member
    exact absurd member List.not_mem_nil

theorem map_file_targetOf? (r : Reexport) :
    (t.targetOf? extensions path r).map FollowTarget.file =
      t.moduleFile? extensions path r.module := by
  rw [targetOf?, moduleFile?, Option.map_map]
  rfl

/-- The targets are files that statements lead to, in the order in which they first do. -/
theorem map_file_targets :
    (t.targets extensions c path).map FollowTarget.file =
      distinct (c.reexports.filterMap fun r => t.moduleFile? extensions path r.module) := by
  simp only [targets, map_file_foldl_addTarget, List.map_filterMap, map_file_targetOf?]
  rfl

/-- How the statements that lead to a file call its module. -/
def modulesOf (t : FileTree) (extensions : List String) (c : Closure) (path file : String) :
    List String :=
  distinct ((c.reexports.filter fun r =>
    t.moduleFile? extensions path r.module = some file).map Reexport.module)

/-- The names that a file has for what statements take from it, in the order in which they come. -/
def originsOf (t : FileTree) (extensions : List String) (c : Closure) (path file : String) :
    List String :=
  distinct ((c.reexports.filter fun r =>
    t.moduleFile? extensions path r.module = some file).flatMap fun r => r.names.map r.originOf)

theorem flatMap_filterMap_targetOf? {field : FollowTarget → List String}
    {own : Reexport → List String}
    (same : ∀ r target, t.targetOf? extensions path r = some target → field target = own r)
    (file : String) (reexports : List Reexport) :
    ((reexports.filterMap (t.targetOf? extensions path)).filter (·.file = file)).flatMap field =
      (reexports.filter fun r => t.moduleFile? extensions path r.module = some file).flatMap
        own := by
  induction reexports with
  | nil => rfl
  | cons r rest ih =>
      have leads := @map_file_targetOf? t extensions path r
      cases found : t.targetOf? extensions path r with
      | none =>
          rw [found] at leads
          simp [List.filterMap_cons_none found, ih, ← leads]
      | some target =>
          rw [found] at leads
          by_cases here : target.file = file
          · simp [List.filterMap_cons_some found, ih, ← leads, here, same r target found]
          · simp [List.filterMap_cons_some found, ih, ← leads, here]

theorem gathers_targets :
    Gathers (c.reexports.filterMap (t.targetOf? extensions path)) (t.targets extensions c path) := by
  have nothing : Gathers [] [] := fun _ member => absurd member List.not_mem_nil
  apply gathers_foldl_addTarget nothing rfl
  intro other member
  obtain ⟨r, _, found⟩ := List.mem_filterMap.mp member
  obtain ⟨path', _, rfl⟩ := targetOf?_eq_some.mp found
  exact ⟨rfl, distinct_of_nodup (nodup_distinct _)⟩

theorem modules_of_mem_targets {target : FollowTarget}
    (member : target ∈ t.targets extensions c path) :
    target.modules = t.modulesOf extensions c path target.file := by
  have own : ∀ r target, t.targetOf? extensions path r = some target →
      target.modules = [r.module] := by
    intro r target found
    obtain ⟨path', _, rfl⟩ := targetOf?_eq_some.mp found
    rfl
  rw [(gathers_targets target member).1, flatMap_filterMap_targetOf? own, modulesOf,
    List.map_eq_flatMap]

theorem roots_of_mem_targets {target : FollowTarget}
    (member : target ∈ t.targets extensions c path) :
    target.roots = t.originsOf extensions c path target.file := by
  have own : ∀ r target, t.targetOf? extensions path r = some target →
      target.roots = distinct (r.names.map r.originOf) := by
    intro r target found
    obtain ⟨path', _, rfl⟩ := targetOf?_eq_some.mp found
    rfl
  rw [(gathers_targets target member).2, flatMap_filterMap_targetOf? own, originsOf,
    distinct_flatMap_distinct]

theorem mem_unresolvedModules {module : String} :
    module ∈ t.unresolvedModules extensions c path ↔
      ∃ r ∈ c.reexports, r.module = module ∧ t.moduleFile? extensions path module = none := by
  rw [unresolvedModules, List.mem_map]
  constructor
  · rintro ⟨r, member, rfl⟩
    obtain ⟨needed, unresolved⟩ := List.mem_filter.mp member
    rw [isNone_targetOf?, Option.isNone_iff_eq_none] at unresolved
    exact ⟨r, needed, rfl, unresolved⟩
  · rintro ⟨r, needed, rfl, unresolved⟩
    refine ⟨r, List.mem_filter.mpr ⟨needed, ?_⟩, rfl⟩
    rw [isNone_targetOf?, Option.isNone_iff_eq_none]
    exact unresolved

end FileTree

end TypeClosure

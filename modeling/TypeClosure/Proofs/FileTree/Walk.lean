import TypeClosure.FileTree.Basic
import TypeClosure.Proofs.FileTree.Segments

/-! Where walks through a tree lead, and the one spelling of each place. -/

namespace TypeClosure.FileTree

/-- A name that a walk steps to: no empty one, no dot, no two dots, and without a slash. -/
structure ProperName (name : String) : Prop where
  noSlash : '/' ∉ name.toList
  notEmpty : Path.isEmptySegment name.toList = false
  notUp : name.toList ≠ ['.', '.']

theorem ProperName.ne_empty {name : String} (proper : ProperName name) : name ≠ "" := by
  rintro rfl
  exact absurd proper.notEmpty (by decide)

/-- A place whose every entry stands in a directory. -/
inductive Grounded (t : FileTree) : List String → Prop
  | root : Grounded t []
  | child {place : List String} {name : String} : Grounded t place →
      t.entryAt? place = some .directory → ProperName name →
      (t.entryAt? (place ++ [name])).isSome = true → Grounded t (place ++ [name])

/-- The current directory, where there is one, is found under its own path. -/
def Anchored (t : FileTree) : Prop :=
  t.entryAt? t.current = some .directory → t.locate (pathOf t.current) = .ok t.current

instance (located : Except Fault (List String)) (place : List String) :
    Decidable (located = .ok place) :=
  match located with
  | .ok other => decidable_of_iff (other = place) (by simp)
  | .error _ => isFalse (by simp)

instance (t : FileTree) : Decidable t.Anchored :=
  inferInstanceAs (Decidable (_ → _))

variable {t : FileTree}

theorem mem_entries_of_entryAt? {place : List String} {entry : Entry} (below : place ≠ [])
    (found : t.entryAt? place = some entry) : (place, entry) ∈ t.entries := by
  rw [entryAt?, if_neg below] at found
  obtain ⟨front, back, eq, _⟩ := List.lookup_eq_some_iff.mp found
  rw [eq]
  simp

theorem walk_cons {place : List String} {segment : List Char} {rest : List (List Char)} :
    t.walk place (segment :: rest) = (t.walk place [segment]).bind (t.walk · rest) := by
  simp only [walk]
  cases t.entryAt? place with
  | none => rfl
  | some entry =>
      cases entry with
      | file text => rfl
      | directory =>
          dsimp only
          split
          · rfl
          · split
            · rfl
            · split
              · rfl
              · rfl

theorem walk_append {place : List String} {ss ts : List (List Char)} :
    t.walk place (ss ++ ts) = (t.walk place ss).bind (t.walk · ts) := by
  induction ss generalizing place with
  | nil => rfl
  | cons s ss ih =>
      rw [List.cons_append, walk_cons, @walk_cons _ _ s ss]
      cases t.walk place [s] with
      | error fault => rfl
      | ok next => exact ih

theorem walk_append_eq_ok {place next : List String} {ss ts : List (List Char)} :
    t.walk place (ss ++ ts) = .ok next ↔
      ∃ middle, t.walk place ss = .ok middle ∧ t.walk middle ts = .ok next := by
  rw [walk_append]
  cases t.walk place ss with
  | error fault => simp [Except.bind]
  | ok middle => simp [Except.bind]

theorem walk_cons_eq_ok {place next : List String} {s : List Char} {ss : List (List Char)} :
    t.walk place (s :: ss) = .ok next ↔
      ∃ middle, t.walk place [s] = .ok middle ∧ t.walk middle ss = .ok next := by
  rw [← List.singleton_append, walk_append_eq_ok]

/-- A step of a walk stays, goes up, or goes to an entry. -/
theorem walk_step {place next : List String} {segment : List Char}
    (walked : t.walk place [segment] = .ok next) :
    t.entryAt? place = some .directory ∧
      (Path.isEmptySegment segment = true ∧ next = place ∨
        segment = ['.', '.'] ∧ next = place.dropLast ∨
        Path.isEmptySegment segment = false ∧ segment ≠ ['.', '.'] ∧
          next = place ++ [String.ofList segment] ∧ (t.entryAt? next).isSome = true) := by
  simp only [walk] at walked
  split at walked
  · next directory =>
      refine ⟨directory, ?_⟩
      split at walked
      · next empty =>
          cases walked
          exact .inl ⟨empty, rfl⟩
      · split at walked
        · next up =>
            cases walked
            exact .inr (.inl ⟨up, rfl⟩)
        · split at walked
          · next nonempty notUp found =>
              cases walked
              exact .inr (.inr ⟨Bool.eq_false_iff.mpr nonempty, notUp, rfl, found⟩)
          · contradiction
  · contradiction
  · contradiction

/-- From a directory each of these steps can be taken. -/
theorem walk_of_step {place next : List String} {segment : List Char}
    (directory : t.entryAt? place = some .directory)
    (step : Path.isEmptySegment segment = true ∧ next = place ∨
      segment = ['.', '.'] ∧ next = place.dropLast ∨
      Path.isEmptySegment segment = false ∧ segment ≠ ['.', '.'] ∧
        next = place ++ [String.ofList segment] ∧ (t.entryAt? next).isSome = true) :
    t.walk place [segment] = .ok next := by
  rcases step with ⟨empty, rfl⟩ | ⟨rfl, rfl⟩ | ⟨named, notUp, rfl, found⟩
  · simp [walk, directory, empty]
  · simp [walk, directory, Path.isEmptySegment]
  · simp [walk, directory, named, notUp, found]

/-- Only a directory can be gone on from. -/
theorem directory_of_walk {place next : List String} {ss : List (List Char)} (more : ss ≠ [])
    (walked : t.walk place ss = .ok next) : t.entryAt? place = some .directory := by
  obtain ⟨s, rest, rfl⟩ := List.exists_cons_of_ne_nil more
  obtain ⟨_, first, _⟩ := walk_cons_eq_ok.mp walked
  exact (walk_step first).1

/-- A segment that says nothing can be left out in front of others. -/
theorem walk_emptySegment (place : List String) {s : List Char} {ss : List (List Char)}
    (empty : Path.isEmptySegment s = true) (more : ss ≠ []) :
    t.walk place (s :: ss) = t.walk place ss := by
  obtain ⟨r, rest, rfl⟩ := List.exists_cons_of_ne_nil more
  simp only [walk, empty, if_true]
  cases t.entryAt? place with
  | none => rfl
  | some entry =>
      cases entry with
      | file text => rfl
      | directory => rfl

theorem Grounded.dropLast {place : List String} (grounded : Grounded t place) :
    Grounded t place.dropLast := by
  cases grounded with
  | root => exact .root
  | child above _ _ _ =>
      rw [List.dropLast_concat]
      exact above

theorem Grounded.entryAt?_dropLast {place : List String} (grounded : Grounded t place) :
    t.entryAt? place.dropLast = some .directory := by
  cases grounded with
  | root => rfl
  | child _ directory _ _ =>
      rw [List.dropLast_concat]
      exact directory

theorem Grounded.walk {place next : List String} (grounded : Grounded t place)
    {ss : List (List Char)} (noSlash : ∀ s ∈ ss, '/' ∉ s) (walked : t.walk place ss = .ok next) :
    Grounded t next := by
  induction ss generalizing place with
  | nil =>
      cases walked
      exact grounded
  | cons s ss ih =>
      obtain ⟨middle, first, rest⟩ := walk_cons_eq_ok.mp walked
      refine ih ?_ (fun r member => noSlash r (List.mem_cons_of_mem _ member)) rest
      obtain ⟨directory, ⟨_, rfl⟩ | ⟨_, rfl⟩ | ⟨nonempty, notUp, rfl, found⟩⟩ := walk_step first
      · exact grounded
      · exact grounded.dropLast
      · refine .child grounded directory ⟨?_, ?_, ?_⟩ found
        · rw [String.toList_ofList]
          exact noSlash s (by simp)
        · rw [String.toList_ofList]
          exact nonempty
        · rw [String.toList_ofList]
          exact notUp

/-! ### Trees with a file more -/

/-- The tree with a file at a place. What is there already stays. -/
def withFile (t : FileTree) (place : List String) (text : Option String) : FileTree :=
  { t with entries := t.entries ++ [(place, .file text)] }

theorem entryAt?_withFile (t : FileTree) (place : List String) (text : Option String)
    (other : List String) :
    (t.withFile place text).entryAt? other = (t.entryAt? other).or
      (if other = place then some (.file text) else none) := by
  unfold entryAt?
  split
  · rfl
  · rw [withFile, List.lookup_append, List.lookup_cons, List.lookup_nil]
    by_cases same : other = place
    · simp [same]
    · simp [same, beq_false_of_ne same]

/-- A walk through a tree goes the same way through one that keeps its entries. -/
theorem walk_of_kept {t' : FileTree} {place next : List String} {ss : List (List Char)}
    (kept : ∀ place entry, t.entryAt? place = some entry → t'.entryAt? place = some entry)
    (walked : t.walk place ss = .ok next) : t'.walk place ss = .ok next := by
  induction ss generalizing place with
  | nil => exact walked
  | cons s ss ih =>
      obtain ⟨middle, first, rest⟩ := walk_cons_eq_ok.mp walked
      obtain ⟨directory, step⟩ := walk_step first
      refine walk_cons_eq_ok.mpr ⟨middle, walk_of_step (kept _ _ directory) ?_, ih rest⟩
      refine step.imp_right (Or.imp_right fun ⟨named, notUp, arrived, held⟩ => ?_)
      obtain ⟨entry, found⟩ := Option.isSome_iff_exists.mp held
      exact ⟨named, notUp, arrived, Option.isSome_iff_exists.mpr ⟨entry, kept _ _ found⟩⟩

/-- With a file more, a walk leads to that file, or where it led without it. -/
theorem walk_withFile {place next start : List String} {text : Option String}
    {ss : List (List Char)} (fresh : t.entryAt? place = none)
    (walked : (t.withFile place text).walk start ss = .ok next) :
    next = place ∨ t.walk start ss = .ok next := by
  have old {other : List String} (ne : other ≠ place) :
      (t.withFile place text).entryAt? other = t.entryAt? other := by
    rw [entryAt?_withFile, if_neg ne, Option.or_none]
  have here : (t.withFile place text).entryAt? place ≠ some .directory := by
    rw [entryAt?_withFile, fresh, Option.none_or, if_pos rfl]
    exact fun same => Entry.noConfusion (Option.some.inj same)
  induction ss generalizing start with
  | nil => exact .inr walked
  | cons s ss ih =>
      obtain ⟨middle, first, rest⟩ := walk_cons_eq_ok.mp walked
      obtain ⟨directory, step⟩ := walk_step first
      have elsewhere : start ≠ place := by
        rintro rfl
        exact here directory
      rw [old elsewhere] at directory
      by_cases arrived : middle = place
      · cases ss with
        | nil =>
            cases rest
            exact .inl arrived
        | cons r ss =>
            -- No way leads on from a file.
            rw [arrived] at rest
            exact absurd (directory_of_walk (List.cons_ne_nil r ss) rest) here
      · rw [old arrived] at step
        have same := walk_of_step directory step
        exact (ih rest).imp_right fun later => walk_cons_eq_ok.mpr ⟨middle, same, later⟩

/-! ### Places as paths -/

/-- Where the walk along a path starts. -/
def origin (t : FileTree) (path : String) : List String :=
  if Path.isAbsolute path then [] else t.current

theorem locate_eq_walk {path : String} (nonempty : path ≠ "") :
    t.locate path = t.walk (t.origin path) (segments path.toList) := by
  have notEmpty : path.isEmpty = false := String.isEmpty_eq_false_iff.mpr nonempty
  rw [locate, notEmpty, origin]
  cases Path.isAbsolute path <;> rfl

theorem ne_empty_of_locate {path : String} {place : List String}
    (located : t.locate path = .ok place) : path ≠ "" := by
  rintro rfl
  contradiction

theorem segments_pathChars (place : List String) :
    segments (place.flatMap fun name => '/' :: name.toList) =
      [] :: place.flatMap fun name => segments name.toList := by
  induction place with
  | nil => rfl
  | cons name rest ih =>
      rw [List.flatMap_cons, List.cons_append, segments_slash, List.flatMap_cons]
      cases rest with
      | nil => simp
      | cons other others =>
          rw [List.flatMap_cons, List.cons_append, segments_append_slash]
          rw [List.flatMap_cons, List.cons_append, segments_slash] at ih
          rw [(List.cons.inj ih).2]

theorem toList_pathOf {place : List String} (nonempty : place ≠ []) :
    (pathOf place).toList = place.flatMap fun name => '/' :: name.toList := by
  have notEmpty : place.isEmpty = false := List.isEmpty_eq_false_iff.mpr nonempty
  rw [pathOf, notEmpty]
  simp [String.toList_join, List.flatMap_map, String.toList_append]

theorem isAbsolute_pathOf (place : List String) : Path.isAbsolute (pathOf place) = true := by
  cases place with
  | nil => rfl
  | cons name rest =>
      rw [Path.isAbsolute, toList_pathOf (List.cons_ne_nil _ _)]
      rfl

theorem pathOf_ne_empty (place : List String) : pathOf place ≠ "" := by
  intro empty
  have absolute := isAbsolute_pathOf place
  rw [empty] at absolute
  contradiction

theorem walk_names {place : List String} (grounded : Grounded t place) :
    t.walk [] (place.flatMap fun name => segments name.toList) = .ok place := by
  induction grounded with
  | root => rfl
  | @child place name grounded directory proper found ih =>
      rw [List.flatMap_append, walk_append, ih, List.flatMap_singleton,
        segments_of_noSlash proper.noSlash]
      simp [Except.bind, walk, directory, proper.notEmpty, proper.notUp, found]

theorem locate_pathOf {place : List String} (grounded : Grounded t place) :
    t.locate (pathOf place) = .ok place := by
  rw [locate_eq_walk (pathOf_ne_empty place), origin, isAbsolute_pathOf]
  cases grounded with
  | root => rfl
  | @child above name grounded directory proper found =>
      rw [toList_pathOf (by simp), segments_pathChars]
      exact walk_names (.child grounded directory proper found)

theorem grounded_current (anchored : t.Anchored)
    (isDirectory : t.entryAt? t.current = some .directory) : Grounded t t.current := by
  have located := anchored isDirectory
  rw [locate_eq_walk (pathOf_ne_empty _), origin, isAbsolute_pathOf] at located
  exact Grounded.root.walk (fun _ => noSlash_of_mem_segments) located

theorem grounded_origin (anchored : t.Anchored) {path : String} {place : List String}
    (located : t.locate path = .ok place) : Grounded t (t.origin path) := by
  rw [locate_eq_walk (ne_empty_of_locate located)] at located
  have isDirectory := directory_of_walk (segments_ne_nil path.toList) located
  unfold origin at isDirectory ⊢
  split
  · exact .root
  · next relative =>
      rw [if_neg relative] at isDirectory
      exact grounded_current anchored isDirectory

theorem grounded_of_locate (anchored : t.Anchored) {path : String} {place : List String}
    (located : t.locate path = .ok place) : Grounded t place := by
  have grounded := grounded_origin anchored located
  rw [locate_eq_walk (ne_empty_of_locate located)] at located
  exact grounded.walk (fun _ => noSlash_of_mem_segments) located

theorem canonical_of_locate {path : String} {place : List String}
    (located : t.locate path = .ok place) : t.canonical path = pathOf place := by
  rw [canonical, located]

/-- What a path names is also found under its one spelling. -/
theorem locate_canonical (anchored : t.Anchored) {path : String} {place : List String}
    (located : t.locate path = .ok place) : t.locate (t.canonical path) = .ok place := by
  rw [canonical_of_locate located]
  exact locate_pathOf (grounded_of_locate anchored located)

end TypeClosure.FileTree

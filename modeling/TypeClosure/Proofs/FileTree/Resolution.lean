import TypeClosure.Closure.Resolution
import TypeClosure.Reexport
import TypeClosure.Proofs.FileTree.Parent

/-!
Module resolution looks at places, not at spellings: however a file is spelled, the modules that it
names are the same files.
-/

namespace TypeClosure.FileTree

variable {t : FileTree}

/-- The place of the file that a path names. -/
def placeOfFile? (t : FileTree) (path : String) : Option (List String) :=
  match t.locate path with
  | .ok place =>
      match t.entryAt? place with
      | some (.file _) => some place
      | _ => none
  | .error _ => none

theorem placeOfFile?_eq_some {path : String} {place : List String} :
    t.placeOfFile? path = some place ↔ t.locate path = .ok place ∧ t.FileAt place := by
  unfold placeOfFile?
  constructor
  · intro found
    split at found
    · next located =>
        split at found
        · next text entry =>
            cases found
            exact ⟨located, text, entry⟩
        · contradiction
    · contradiction
  · rintro ⟨located, text, entry⟩
    simp [located, entry]

theorem isSome_placeOfFile? (path : String) :
    (t.placeOfFile? path).isSome = t.isFile path := by
  unfold placeOfFile? isFile find?
  cases t.locate path with
  | error fault => rfl
  | ok place =>
      dsimp only
      cases t.entryAt? place with
      | none => rfl
      | some entry =>
          cases entry with
          | directory => rfl
          | file text => rfl

theorem placeOfFile?_congr {p q : String} (same : t.locate p = t.locate q) :
    t.placeOfFile? p = t.placeOfFile? q := by
  rw [placeOfFile?, same, placeOfFile?]

/-! ### Joined paths -/

theorem toList_ne_nil {text : String} (nonempty : text ≠ "") : text.toList ≠ [] :=
  fun empty => nonempty (String.toList_injective empty)

/-- The three ways of putting a relative path behind a directory. -/
theorem join_cases (directory : String) {x : String} (relative : Path.isAbsolute x = false) :
    (directory = "" ∧ Path.join directory x = x) ∨
      (∃ above, directory.toList = above ++ ['/'] ∧
        (Path.join directory x).toList = above ++ '/' :: x.toList) ∨
      (directory ≠ "" ∧ (Path.join directory x).toList = directory.toList ++ '/' :: x.toList) := by
  rw [Path.join, relative]
  cases last : directory.toList.getLast? with
  | none =>
      have empty : directory.toList = [] := List.getLast?_eq_none_iff.mp last
      exact .inl ⟨String.toList_injective empty, rfl⟩
  | some c =>
      by_cases slash : c = '/'
      · subst slash
        obtain ⟨above, eq⟩ := List.getLast?_eq_some_iff.mp last
        refine .inr (.inl ⟨above, eq, ?_⟩)
        simp [String.toList_append, eq]
      · refine .inr (.inr ⟨?_, ?_⟩)
        · rintro rfl
          contradiction
        · simp [String.toList_append]

theorem isAbsolute_append {x : String} (nonempty : x ≠ "") (e : String) :
    Path.isAbsolute (x ++ e) = Path.isAbsolute x := by
  obtain ⟨c, cs, eq⟩ := List.exists_cons_of_ne_nil (toList_ne_nil nonempty)
  rw [Path.isAbsolute, Path.isAbsolute, String.toList_append, eq]
  rfl

theorem isAbsolute_append_eq_false {x e : String} (relative : Path.isAbsolute x = false)
    (relative' : Path.isAbsolute e = false) : Path.isAbsolute (x ++ e) = false := by
  by_cases empty : x = ""
  · rw [empty, String.empty_append]
    exact relative'
  · rw [isAbsolute_append empty]
    exact relative

theorem join_append (directory : String) {x e : String} (relative : Path.isAbsolute x = false)
    (relative' : Path.isAbsolute e = false) :
    Path.join directory x ++ e = Path.join directory (x ++ e) := by
  rw [Path.join, Path.join, relative, isAbsolute_append_eq_false relative relative']
  cases directory.toList.getLast? with
  | none => rfl
  | some c =>
      by_cases slash : c = '/'
      · subst slash
        exact String.append_assoc
      · simp [String.append_assoc]

theorem join_ne_empty (directory : String) {x : String} (relative : Path.isAbsolute x = false)
    (nonempty : x ≠ "") : Path.join directory x ≠ "" := by
  intro empty
  rcases join_cases directory relative with ⟨_, same⟩ | ⟨above, _, joined⟩ | ⟨_, joined⟩
  · exact nonempty (same.symm.trans empty)
  · rw [empty] at joined
    exact List.cons_ne_nil _ _ (List.append_eq_nil_iff.mp joined.symm).2
  · rw [empty] at joined
    exact List.cons_ne_nil _ _ (List.append_eq_nil_iff.mp joined.symm).2

/-- Behind the segments of a directory, without an empty one at the end, stand those of a path that
is joined to it. -/
theorem segments_join {directory x : String} (named : directory ≠ "")
    (relative : Path.isAbsolute x = false) :
    Path.isAbsolute (Path.join directory x) = Path.isAbsolute directory ∧
      ∃ above, above ≠ [] ∧
        (segments directory.toList = above ++ [[]] ∨ segments directory.toList = above) ∧
        segments (Path.join directory x).toList = above ++ segments x.toList := by
  rcases join_cases directory relative with ⟨rfl, _⟩ | ⟨above, ends, joined⟩ | ⟨_, joined⟩
  · contradiction
  · refine ⟨?_, segments above, segments_ne_nil _, .inl ?_, ?_⟩
    · rw [Path.isAbsolute, Path.isAbsolute, joined, ends]
      cases above <;> rfl
    · rw [ends, segments_append_slash, segments_nil]
    · rw [joined, segments_append_slash]
  · refine ⟨?_, segments directory.toList, segments_ne_nil _, .inr rfl, ?_⟩
    · obtain ⟨c, cs, eq⟩ := List.exists_cons_of_ne_nil (toList_ne_nil named)
      rw [Path.isAbsolute, Path.isAbsolute, joined, eq]
      rfl
    · rw [joined, segments_append_slash]

theorem locate_join {directory x : String} (named : directory ≠ "")
    (relative : Path.isAbsolute x = false) :
    t.locate (Path.join directory x) =
      (t.locate directory).bind (t.walk · (segments x.toList)) := by
  obtain ⟨absolute, above, some, ends, joined⟩ := segments_join named relative
  have nonempty : Path.join directory x ≠ "" := by
    intro empty
    rw [empty, String.toList_empty, segments_nil, eq_comm, List.append_eq_singleton_iff] at joined
    rcases joined with ⟨none, _⟩ | ⟨_, none⟩
    · exact some none
    · exact segments_ne_nil _ none
  have start : t.origin (Path.join directory x) = t.origin directory := by
    rw [origin, origin, absolute]
  rw [locate_eq_walk nonempty, locate_eq_walk named, start, joined, walk_append]
  rcases ends with ends | ends
  · rw [ends, walk_append]
    cases t.walk (t.origin directory) above with
    | error fault => rfl
    | ok place =>
        change t.walk place (segments x.toList) =
          (t.walk place [[]]).bind (t.walk · (segments x.toList))
        rw [← walk_cons, walk_emptySegment place rfl (segments_ne_nil _)]
  · rw [ends]

/-- A path behind a directory leads where the path leads from that directory. -/
theorem enter_join (directory : String) {x : String} (relative : Path.isAbsolute x = false)
    (nonempty : x ≠ "") :
    t.enter (Path.join directory x) =
      (t.enter directory).bind (t.walk · (segments x.toList)) := by
  rw [enter, if_neg (join_ne_empty directory relative nonempty)]
  by_cases named : directory = ""
  · have same : Path.join "" x = x := by
      rw [Path.join, relative]
      rfl
    rw [named, same, locate_eq_walk nonempty, origin, relative]
    rfl
  · rw [enter, if_neg named, locate_join named relative]

theorem placeOfFile?_of_slash {path : String} {above : List Char}
    (ends : path.toList = above ++ ['/']) : t.placeOfFile? path = none := by
  apply Option.eq_none_iff_forall_not_mem.mpr
  intro place found
  obtain ⟨located, file⟩ := placeOfFile?_eq_some.mp found
  rw [locate_eq_walk (ne_empty_of_locate located), ends, segments_append_slash, segments_nil,
    walk_append_eq_ok] at located
  obtain ⟨middle, _, step⟩ := located
  obtain ⟨directory, ⟨_, rfl⟩ | ⟨up, _⟩ | ⟨named, _⟩⟩ := walk_step step
  · exact file.ne_directory directory
  · contradiction
  · contradiction

theorem placeOfFile?_join_empty (directory : String) :
    t.placeOfFile? (Path.join directory "") = none := by
  rcases join_cases directory (x := "") rfl with ⟨_, same⟩ | ⟨above, _, joined⟩ | ⟨_, joined⟩
  · rw [same]
    rfl
  · exact placeOfFile?_of_slash joined
  · exact placeOfFile?_of_slash joined

/-- The file that a joined path names depends on the place of the directory only. -/
theorem placeOfFile?_join {directory other : String} (same : t.enter directory = t.enter other)
    {x : String} (relative : Path.isAbsolute x = false) :
    t.placeOfFile? (Path.join directory x) = t.placeOfFile? (Path.join other x) := by
  by_cases nonempty : x = ""
  · rw [nonempty, placeOfFile?_join_empty, placeOfFile?_join_empty]
  · apply placeOfFile?_congr
    have full (d : String) : t.locate (Path.join d x) = t.enter (Path.join d x) := by
      rw [enter, if_neg (join_ne_empty d relative nonempty)]
    rw [full, full, enter_join _ relative nonempty, enter_join _ relative nonempty, same]

/-! ### Candidates -/

theorem withoutEnding?_eq_some {ending text stem : String} :
    withoutEnding? ending text = some stem ↔ text = stem ++ ending := by
  unfold withoutEnding?
  constructor
  · intro cut
    split at cut
    · next ends =>
        obtain ⟨front, eq⟩ := List.isSuffixOf_iff_suffix.mp ends
        cases cut
        apply String.toList_injective
        have count : text.length - ending.length = front.length := by
          rw [← String.length_toList, ← String.length_toList, ← eq, List.length_append]
          omega
        rw [String.toList_append, String.toList_ofList, count, ← eq, List.take_left]
    · contradiction
  · rintro rfl
    have ends : ending.toList.isSuffixOf (stem ++ ending).toList = true := by
      rw [List.isSuffixOf_iff_suffix, String.toList_append]
      exact List.suffix_append _ _
    rw [if_pos ends]
    apply congrArg some
    apply String.toList_injective
    have count : (stem ++ ending).length - ending.length = stem.toList.length := by
      rw [String.length_append, String.length_toList]
      omega
    rw [String.toList_ofList, count, String.toList_append, List.take_left]

theorem toList_of_isRelative {specifier : String} (relative : isRelative specifier = true) :
    ∃ rest, specifier.toList = '.' :: rest := by
  obtain ⟨rest, eq⟩ := List.isPrefixOf_iff_prefix.mp relative
  exact ⟨rest, eq.symm⟩

theorem ne_empty_of_isRelative {specifier : String} (relative : isRelative specifier = true) :
    specifier ≠ "" := by
  rintro rfl
  contradiction

theorem isAbsolute_of_isRelative {specifier : String} (relative : isRelative specifier = true) :
    Path.isAbsolute specifier = false := by
  obtain ⟨rest, eq⟩ := toList_of_isRelative relative
  rw [Path.isAbsolute, eq]
  rfl

theorem isAbsolute_stem {specifier stem : String} (relative : isRelative specifier = true)
    (cut : withoutEnding? ".js" specifier = some stem) : Path.isAbsolute stem = false := by
  have notAbsolute := isAbsolute_of_isRelative relative
  by_cases empty : stem = ""
  · rw [empty]
    rfl
  · rwa [withoutEnding?_eq_some.mp cut, isAbsolute_append empty] at notAbsolute

/-- An ending of a relative specifier behind a directory is an ending of the specifier: nothing
that begins with a dot is a proper ending of `.js`. -/
theorem suffix_of_suffix_join (directory : String) {specifier : String}
    (relative : isRelative specifier = true)
    (ends : ".js".toList <:+ (Path.join directory specifier).toList) :
    ".js".toList <:+ specifier.toList := by
  have tail : specifier.toList <:+ (Path.join directory specifier).toList := by
    rcases join_cases directory (isAbsolute_of_isRelative relative) with
      ⟨_, same⟩ | ⟨above, _, joined⟩ | ⟨_, joined⟩
    · exact ⟨[], (congrArg String.toList same).symm⟩
    · rw [joined]
      exact (List.suffix_cons _ _).trans (List.suffix_append _ _)
    · rw [joined]
      exact (List.suffix_cons _ _).trans (List.suffix_append _ _)
  rcases Nat.le_total (".js".toList.length) specifier.toList.length with shorter | longer
  · exact List.suffix_of_suffix_length_le ends tail shorter
  · have inside := List.suffix_of_suffix_length_le tail ends longer
    rcases List.suffix_cons_iff.mp inside with same | inside
    · rw [same]
      exact List.suffix_refl _
    · obtain ⟨rest, eq⟩ := toList_of_isRelative relative
      have dot : '.' ∈ ['j', 's'] := inside.mem (by rw [eq]; exact List.mem_cons_self)
      exact absurd dot (by decide)

theorem withoutEnding?_join (directory : String) {specifier : String}
    (relative : isRelative specifier = true) :
    withoutEnding? ".js" (Path.join directory specifier) =
      (withoutEnding? ".js" specifier).map (Path.join directory) := by
  have joined {stem : String} (eq : specifier = stem ++ ".js") :
      Path.join directory specifier = Path.join directory stem ++ ".js" := by
    rw [eq, join_append directory (isAbsolute_stem relative (withoutEnding?_eq_some.mpr eq)) rfl]
  apply Option.ext
  intro stem
  rw [withoutEnding?_eq_some, Option.map_eq_some_iff]
  constructor
  · intro eq
    have ends := suffix_of_suffix_join directory relative
      (by rw [eq, String.toList_append]; exact List.suffix_append _ _)
    obtain ⟨front, cut⟩ := ends
    have whole : specifier = String.ofList front ++ ".js" := by
      apply String.toList_injective
      rw [String.toList_append, String.toList_ofList, cut]
    refine ⟨String.ofList front, withoutEnding?_eq_some.mpr whole, ?_⟩
    have same := (joined whole).symm.trans eq
    have chars := congrArg String.toList same
    rw [String.toList_append, String.toList_append] at chars
    exact String.toList_injective (List.append_cancel_right chars)
  · rintro ⟨front, cut, rfl⟩
    exact joined (withoutEnding?_eq_some.mp cut)

variable {extensions : List String}

section Directories

variable {directory other : String} (same : t.enter directory = t.enter other)

include same

/-- A relative path with an extension behind it depends on the place of the directory only. -/
theorem map_placeOfFile?_append (plain : ∀ e ∈ extensions, Path.isAbsolute e = false) {x : String}
    (relative : Path.isAbsolute x = false) :
    (extensions.map (Path.join directory x ++ ·)).map t.placeOfFile? =
      (extensions.map (Path.join other x ++ ·)).map t.placeOfFile? := by
  rw [List.map_map, List.map_map]
  apply List.map_congr_left
  intro e member
  rw [Function.comp_apply, Function.comp_apply, join_append _ relative (plain e member),
    join_append _ relative (plain e member)]
  exact placeOfFile?_join same (isAbsolute_append_eq_false relative (plain e member))

/-- So does the index of a directory. -/
theorem map_placeOfFile?_index {specifier : String} (relative : isRelative specifier = true) :
    (extensions.map fun e => Path.join (Path.join directory specifier) ("index" ++ e)).map
        t.placeOfFile? =
      (extensions.map fun e => Path.join (Path.join other specifier) ("index" ++ e)).map
        t.placeOfFile? := by
  have inside : t.enter (Path.join directory specifier) = t.enter (Path.join other specifier) := by
    rw [enter_join _ (isAbsolute_of_isRelative relative) (ne_empty_of_isRelative relative),
      enter_join _ (isAbsolute_of_isRelative relative) (ne_empty_of_isRelative relative), same]
  have index (e : String) : Path.isAbsolute ("index" ++ e) = false := by
    rw [isAbsolute_append (by decide)]
    decide
  rw [List.map_map, List.map_map]
  apply List.map_congr_left
  intro e _
  rw [Function.comp_apply, Function.comp_apply]
  exact placeOfFile?_join inside (index e)

end Directories

theorem map_placeOfFile?_moduleCandidates {importing other specifier : String}
    (same : t.enter ((Path.parent? importing).getD ".") =
      t.enter ((Path.parent? other).getD "."))
    (relative : isRelative specifier = true)
    (plain : ∀ e ∈ extensions, Path.isAbsolute e = false) :
    (moduleCandidates importing specifier extensions).map t.placeOfFile? =
      (moduleCandidates other specifier extensions).map t.placeOfFile? := by
  have notAbsolute := isAbsolute_of_isRelative relative
  simp only [moduleCandidates, withoutEnding?_join _ relative, List.map_append, List.map_cons]
  rw [placeOfFile?_join same notAbsolute, map_placeOfFile?_append same plain notAbsolute,
    map_placeOfFile?_index same relative]
  cases cut : withoutEnding? ".js" specifier with
  | none => rfl
  | some stem =>
      simp only [Option.map_some]
      rw [map_placeOfFile?_append same plain (isAbsolute_stem relative cut)]

theorem bind_find?_isFile (candidates : List String) :
    (candidates.find? t.isFile).bind t.placeOfFile? =
      (candidates.map t.placeOfFile?).findSome? id := by
  induction candidates with
  | nil => rfl
  | cons candidate rest ih =>
      rw [List.map_cons, List.findSome?_cons, List.find?_cons, ← isSome_placeOfFile?]
      cases found : t.placeOfFile? candidate with
      | none => exact ih
      | some place => exact found

/-- However a file is spelled, a relative specifier in it leads to the same file. -/
theorem bind_resolveModule (anchored : t.Anchored) {importing other specifier : String}
    {place : List String} (located : t.locate importing = .ok place)
    (located' : t.locate other = .ok place) (file : t.FileAt place)
    (relative : isRelative specifier = true)
    (plain : ∀ e ∈ extensions, Path.isAbsolute e = false) :
    (t.resolveModule importing specifier extensions).bind t.placeOfFile? =
      (t.resolveModule other specifier extensions).bind t.placeOfFile? := by
  obtain ⟨directory, parent, entered⟩ := enter_parent? anchored located file
  obtain ⟨directory', parent', entered'⟩ := enter_parent? anchored located' file
  have same : t.enter ((Path.parent? importing).getD ".") =
      t.enter ((Path.parent? other).getD ".") := by
    rw [parent, parent', Option.getD_some, Option.getD_some, entered, entered']
  rw [resolveModule, resolveModule, bind_find?_isFile, bind_find?_isFile,
    map_placeOfFile?_moduleCandidates same relative plain]

theorem isFile_of_resolveModule {importing specifier path : String}
    (resolved : t.resolveModule importing specifier extensions = some path) :
    t.isFile path = true :=
  List.find?_some resolved

theorem placeOfFile?_of_resolveModule {importing specifier path : String}
    (resolved : t.resolveModule importing specifier extensions = some path) :
    ∃ place, t.placeOfFile? path = some place := by
  rw [← Option.isSome_iff_exists, isSome_placeOfFile?]
  exact isFile_of_resolveModule resolved

theorem canonical_of_placeOfFile? {path : String} {place : List String}
    (found : t.placeOfFile? path = some place) : t.canonical path = pathOf place :=
  canonical_of_locate (placeOfFile?_eq_some.mp found).1

theorem map_canonical_resolveModule {importing specifier : String} :
    (t.resolveModule importing specifier extensions).map t.canonical =
      ((t.resolveModule importing specifier extensions).bind t.placeOfFile?).map pathOf := by
  cases resolved : t.resolveModule importing specifier extensions with
  | none => rfl
  | some path =>
      obtain ⟨place, found⟩ := placeOfFile?_of_resolveModule resolved
      rw [Option.bind_some, found, Option.map_some, Option.map_some,
        canonical_of_placeOfFile? found]

/-- The one spelling of the file that a specifier means. -/
def moduleFile? (t : FileTree) (extensions : List String) (file module : String) :
    Option String :=
  (t.resolveModule file module extensions).map t.canonical

theorem moduleFile?_congr (anchored : t.Anchored) {importing other specifier : String}
    {place : List String} (located : t.locate importing = .ok place)
    (located' : t.locate other = .ok place) (file : t.FileAt place)
    (relative : isRelative specifier = true)
    (plain : ∀ e ∈ extensions, Path.isAbsolute e = false) :
    t.moduleFile? extensions importing specifier = t.moduleFile? extensions other specifier := by
  rw [moduleFile?, moduleFile?, map_canonical_resolveModule, map_canonical_resolveModule,
    bind_resolveModule anchored located located' file relative plain]

end TypeClosure.FileTree

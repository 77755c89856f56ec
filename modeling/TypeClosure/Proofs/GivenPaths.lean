import TypeClosure.Proofs.Glob.OwnPaths

/-!
Which files are found by the paths that are given for them. A path with a character of patterns is
read as a pattern, so that it stands for its file only if it matches itself.
-/

namespace TypeClosure.Glob

open FileTree

variable {t : FileTree} {text : String}

/-! ### Texts that are patterns -/

/-- A text that can be read as a pattern, as a whole and in each component. -/
def IsReadable (text : String) : Prop :=
  (∃ whole, Pattern.read text = .ok whole) ∧
    ∀ name ∈ patternTexts text, ∃ p, Pattern.read name = .ok p

theorem exists_forall₂ {α β : Type} {R : α → β → Prop} {xs : List α} :
    (∃ ys, List.Forall₂ R xs ys) ↔ ∀ x ∈ xs, ∃ y, R x y := by
  induction xs with
  | nil => simp
  | cons x xs ih =>
      rw [List.forall_mem_cons, ← ih]
      constructor
      · rintro ⟨_, all⟩
        cases all with
        | cons here rest => exact ⟨⟨_, here⟩, _, rest⟩
      · rintro ⟨⟨y, here⟩, ys, rest⟩
        exact ⟨y :: ys, .cons here rest⟩

theorem exists_sourcePaths :
    (∃ list, sourcePaths t text = .ok list) ↔ (isPattern text = true → IsReadable text) := by
  have readable : (∃ found, expand t text = .ok found) ↔ IsReadable text := by
    simp only [expand_eq_ok, IsReadable, ← exists_forall₂]
    constructor
    · rintro ⟨_, whole, ps, each, _⟩
      exact ⟨whole, ps, each⟩
    · rintro ⟨whole, ps, each⟩
      exact ⟨_, whole, ps, each, rfl⟩
  rw [← readable, sourcePaths]
  cases isPattern text with
  | false => simp
  | true =>
      cases expand t text with
      | error fault => simp
      | ok found => simp

/-! ### Given files -/

theorem isFile_congr {path other : String} (same : t.locate path = t.locate other) :
    t.isFile path = t.isFile other := by
  rw [FileTree.isFile, FileTree.isFile, FileTree.find?, FileTree.find?, same]

/-- A source file that is given by its path stands for itself, in some spelling. -/
theorem exists_standsFor (file : t.isFile text = true) (source : isTypeScript text = true)
    (itself : isPattern text = true → NamesItself text) {paths : List String}
    (alone : sourcePaths t text = .ok paths) :
    ∃ spelling, StandsFor t text spelling ∧ t.locate spelling = t.locate text := by
  cases pattern : isPattern text with
  | false => exact ⟨text, .path pattern, rfl⟩
  | true =>
      rw [sourcePaths, if_pos pattern] at alone
      split at alone
      · next found expanded =>
          obtain ⟨name, place, leads⟩ := leadsToNamed_of_isFile file source
          obtain ⟨path, member, arrived, named⟩ :=
            exists_found_of_namesItself leads source (itself pattern) expanded
          have same : t.locate path = t.locate text := arrived.trans leads.located.symm
          refine ⟨path, .file pattern expanded member ?_ ?_, same⟩
          · rw [isFile_congr same, file]
          · rw [isTypeScript_congr (named.trans leads.fileName.symm), source]
      · cases alone

/-- What is listed is a file, or a path that is given and leads to none. -/
theorem isFile_or_given {texts : List String} {path : String}
    (each : ∀ text ∈ texts, ∃ list, sourcePaths t text = .ok list)
    (listed : path ∈ distinctPaths (texts.flatMap (pathsOf t))) :
    t.isFile path = true ∨ path ∈ texts ∧ t.isFile path = false := by
  obtain ⟨other, among, found⟩ := List.mem_flatMap.mp (mem_of_mem_distinctPaths listed)
  obtain ⟨list, alone⟩ := each other among
  rw [pathsOf_eq alone] at found
  cases (mem_sourcePaths alone).mp found with
  | path =>
      cases file : t.isFile path with
      | true => exact .inl rfl
      | false => exact .inr ⟨among, rfl⟩
  | file _ _ _ file _ => exact .inl file

/-- Patterns and paths stand for files if and only if each pattern among them can be read. A source
file that is given by its path is among these files, if the path holds no character of patterns or
its components, read as patterns, match themselves; all components do where no bracket is among
them. In its place another spelling of the path may stand that is given too and leads to no file.
Where the last component does not match itself, the path does not stand for the file. -/
theorem given_files_found (t : FileTree) (texts : List String) :
    ((∃ paths, allSourcePaths t texts = .ok paths) ↔
      ∀ text ∈ texts, isPattern text = true → IsReadable text) ∧
    (∀ paths, allSourcePaths t texts = .ok paths →
      ∀ text ∈ texts, t.isFile text = true → isTypeScript text = true →
        ((isPattern text = true → NamesItself text) →
          ∃ path ∈ paths, t.locate path = t.locate text ∨
            path ∈ texts ∧ t.isFile path = false ∧
              ∃ spelling, Path.same spelling path = true ∧ t.locate spelling = t.locate text) ∧
        ∀ name p, (patternTexts text).getLast? = some name → Pattern.read name = .ok p →
          p.matches name = false →
          ∀ path, StandsFor t text path → t.locate path ≠ t.locate text) ∧
    ∀ text, '[' ∉ text.toList → ∀ name ∈ patternTexts text, ∀ p, Pattern.read name = .ok p →
      p.matches name = true := by
  refine ⟨?_, fun paths expands text among file source => ⟨fun itself => ?_, ?_⟩,
    fun text plain name member p read => matches_of_mem_patternTexts plain member read⟩
  · simp only [allSourcePaths_eq_ok, exists_and_left, exists_eq, and_true, exists_sourcePaths]
  · obtain ⟨each, rfl⟩ := allSourcePaths_eq_ok.mp expands
    obtain ⟨list, alone⟩ := each text among
    obtain ⟨spelling, stands, here⟩ := exists_standsFor file source itself alone
    have member : spelling ∈ texts.flatMap (pathsOf t) := by
      refine List.mem_flatMap.mpr ⟨text, among, ?_⟩
      rw [pathsOf_eq alone]
      exact (mem_sourcePaths alone).mpr stands
    obtain ⟨path, listed, same⟩ := exists_same_of_mem member
    refine ⟨path, listed, ?_⟩
    rcases isFile_or_given each listed with leads | ⟨given, nowhere⟩
    · -- Two spellings of one path that both lead somewhere lead to the same place.
      obtain ⟨place, located, _⟩ := isFile_iff.mp leads
      obtain ⟨place', located', _⟩ := isFile_iff.mp file
      have one := locate_eq_of_same (same_iff.mp same) (here.trans located') located
      exact .inl (located.trans (one ▸ located'.symm))
    · exact .inr ⟨given, nowhere, spelling, same, here⟩
  · intro name p last read mismatch path stands
    obtain ⟨called, place, leads⟩ := leadsToNamed_of_isFile file source
    cases last.symm.trans leads.last
    rw [leads.located]
    exact locate_ne_of_mismatch leads source read mismatch stands

/-- A directory and files with characters of patterns in their names. -/
def routes : FileTree where
  current := ["w"]
  entries := [(["w"], .directory), (["w", "**"], .directory),
    (["w", "**", "b.ts"], .file (some "")), (["w", "[id].ts"], .file (some "")),
    (["w", "a*.ts"], .file (some "")), (["w", "c.ts"], .file (some ""))]

theorem isReadable_of_toBool (whole : (Pattern.read text).toBool = true)
    (parts : (patternTexts text).all (fun name => (Pattern.read name).toBool) = true) :
    IsReadable text := by
  have readable {name : String} (read : (Pattern.read name).toBool = true) :
      ∃ p, Pattern.read name = .ok p := by
    cases outcome : Pattern.read name with
    | error fault =>
        rw [outcome] at read
        cases read
    | ok p => exact ⟨p, rfl⟩
  exact ⟨readable whole, fun name member => readable (List.all_eq_true.mp parts name member)⟩

theorem given_files_found_routes :
    ∃ paths, allSourcePaths routes ["**/b.ts", "./a*.ts", "[id].ts"] = .ok paths ∧
      (∃ path ∈ paths, routes.locate path = .ok ["w", "**", "b.ts"]) ∧
      (∃ path ∈ paths, routes.locate path = .ok ["w", "a*.ts"]) ∧
      ∀ path, StandsFor routes "[id].ts" path → routes.locate path ≠ .ok ["w", "[id].ts"] := by
  obtain ⟨succeeds, found, plain⟩ := given_files_found routes ["**/b.ts", "./a*.ts", "[id].ts"]
  obtain ⟨paths, expands⟩ := succeeds.mpr <| by
    simp only [List.forall_mem_cons, List.not_mem_nil, false_imp_iff, implies_true, and_true]
    exact ⟨fun _ => isReadable_of_toBool (by decide +kernel) (by decide +kernel),
      fun _ => isReadable_of_toBool (by decide +kernel) (by decide +kernel),
      fun _ => isReadable_of_toBool (by decide +kernel) (by decide +kernel)⟩
  have files : ∀ path ∈ ["**/b.ts", "./a*.ts", "[id].ts"], routes.isFile path = true := by
    decide +kernel
  have own (text : String) {place : List String}
      (given : text ∈ ["**/b.ts", "./a*.ts", "[id].ts"]) (source : isTypeScript text = true)
      (itself : NamesItself text) (located : routes.locate text = .ok place) :
      ∃ path ∈ paths, routes.locate path = .ok place := by
    obtain ⟨path, listed, same | ⟨given', nowhere, _⟩⟩ :=
      (found paths expands text given (files text given) source).1 fun _ => itself
    · exact ⟨path, listed, same.trans located⟩
    · exact absurd ((files path given').symm.trans nowhere) (by decide)
  refine ⟨paths, expands, own "**/b.ts" (by decide) (by decide +kernel) ?_ rfl,
    own "./a*.ts" (by decide) (by decide +kernel) ?_ rfl, ?_⟩
  · have parts : patternTexts "**/b.ts" = ["**", "b.ts"] := by decide +kernel
    refine ⟨fun name member p read => plain _ (by decide) name member p read, ?_, .inr ?_⟩
    · rw [parts]
      exact .cons_cons (fun _ => .inr ⟨by decide, by decide, by decide⟩) (.singleton _)
    · rw [parts]
      decide
  · have parts : patternTexts "./a*.ts" = [".", "a*.ts"] := by decide +kernel
    refine ⟨fun name member p read => plain _ (by decide) name member p read, ?_, .inr ?_⟩
    · rw [parts]
      exact .cons_cons (fun same => absurd same (by decide)) (.singleton _)
    · rw [parts]
      decide
  · have bracket : Pattern.read "[id].ts" =
        .ok ⟨"[id].ts", .within [('i', 'i'), ('d', 'd')] :: ".ts".toList.map .literal⟩ := by
      decide +kernel
    exact (found paths expands "[id].ts" (by decide) (files _ (by decide)) (by decide +kernel)).2
      "[id].ts" _ (by decide +kernel) bracket (by decide +kernel)

theorem entries_routes : entries routes "." = ["**", "[id].ts", "a*.ts", "c.ts"] := by
  have here : routes.locate "." = .ok ["w"] := rfl
  have names : routes.names ["w"] = ["**", "[id].ts", "a*.ts", "c.ts"] :=
    List.mergeSort_of_pairwise (by decide +kernel)
  simp only [entries, here, names]
  decide +kernel

theorem allSourcePaths_of_expand_nil (pattern : isPattern text = true)
    (expanded : expand t text = .ok []) : allSourcePaths t [text] = .ok [] := by
  rw [allSourcePaths, List.foldlM_cons, sourcePaths, if_pos pattern, expanded]
  rfl

theorem allSourcePaths_bracketed : allSourcePaths routes ["[id].ts"] = .ok [] := by
  let p : Pattern := ⟨"[id].ts", .within [('i', 'i'), ('d', 'd')] :: ".ts".toList.map .literal⟩
  have directory : routes.isDirectory "." = true := by decide +kernel
  have read : Pattern.read "[id].ts" = .ok p := by decide +kernel
  have parts : patternTexts "[id].ts" = ["[id].ts"] := by decide +kernel
  have none : (entries routes ".").filter (matchesName p) = [] := by
    rw [entries_routes]
    decide +kernel
  have found : expandFrom routes false [p] "." = [] := by
    rw [expandFrom_wildcard _ _ _ _ _ rfl rfl, if_pos directory, none]
    rfl
  refine allSourcePaths_of_expand_nil (by decide +kernel)
    (expand_eq_ok.mpr ⟨⟨p, read⟩, [p], ?_, found.symm⟩)
  rw [parts]
  exact .cons read .nil

/-- A name is no dot. -/
theorem not_matches_dot (name : String) (named : Path.isEmptySegment name.toList = false) :
    (Pattern.mk "." [.literal '.']).matches name = false := by
  rw [Pattern.matches]
  cases chars : name.toList with
  | nil => rfl
  | cons c cs =>
      rw [chars] at named
      change (c == '.' && cs.isEmpty) = false
      rw [← Bool.not_eq_true, Bool.and_eq_true, beq_iff_eq, List.isEmpty_iff]
      rintro ⟨rfl, rfl⟩
      cases named

theorem allSourcePaths_dotted : allSourcePaths routes ["**/./b.ts"] = .ok [] := by
  let above : Pattern := ⟨"**", [.anyPath]⟩
  let dot : Pattern := ⟨".", [.literal '.']⟩
  let last : Pattern := ⟨"b.ts", "b.ts".toList.map .literal⟩
  have whole : ∃ p, Pattern.read "**/./b.ts" = .ok p :=
    ⟨⟨"**/./b.ts", .anyPath :: "./b.ts".toList.map .literal⟩, by decide +kernel⟩
  have parts : patternTexts "**/./b.ts" = ["**", ".", "b.ts"] := by decide +kernel
  have found : expandFrom routes false [above, dot, last] "." = [] :=
    expandFrom_of_no_name (by decide) not_matches_dot
  refine allSourcePaths_of_expand_nil (by decide +kernel)
    (expand_eq_ok.mpr ⟨whole, [above, dot, last], ?_, found.symm⟩)
  rw [parts]
  exact .cons (by decide +kernel) (.cons (by decide +kernel) (.cons (by decide +kernel) .nil))

/-- Files are not found by their paths where a component is a pattern that does not match itself, an
empty component stands behind dots alone, or a dot stands behind `**`. Another spelling may hide a
file, and a text that is no pattern all of them. -/
theorem given_files_not_found :
    (∀ text ∈ ["[id].ts", ".//a*.ts", "**/./b.ts"], routes.isFile text = true ∧
      isTypeScript text = true ∧ allSourcePaths routes [text] = .ok []) ∧
    (routes.isFile "c.ts" = true ∧ isTypeScript "c.ts" = true ∧
      allSourcePaths routes ["c.ts/", "c.ts"] = .ok ["c.ts/"] ∧ routes.isFile "c.ts/" = false) ∧
    ∃ f, allSourcePaths routes ["c.ts", "["] = .error f := by
  refine ⟨?_, by decide +kernel, ⟨[.expanding "["], .pattern ⟨0, .range⟩⟩, by decide +kernel⟩
  simp only [List.forall_mem_cons, List.not_mem_nil, false_imp_iff, implies_true, and_true,
    allSourcePaths_bracketed, allSourcePaths_dotted]
  decide +kernel

end TypeClosure.Glob
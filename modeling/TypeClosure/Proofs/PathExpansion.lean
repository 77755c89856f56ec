import Mathlib.Data.List.Induction
import TypeClosure.Glob.Expansion

/-!
The files that patterns stand for together. Each pattern stands for a list of paths by itself; the
lists are joined, and of paths that differ only in slashes and dots that say nothing the first one
stays.
-/

namespace TypeClosure.Glob

open FileTree

/-! ### Paths without repetitions -/

theorem same_iff {path other : String} :
    Path.same path other = true ↔ Path.components path = Path.components other := beq_iff_eq

theorem any_same_iff {paths : List String} {path : String} :
    paths.any (Path.same path) = true ↔
      Path.components path ∈ paths.map Path.components := by
  rw [List.any_eq_true, List.mem_map]
  exact exists_congr fun other => and_congr_right fun _ => same_iff.trans eq_comm

/-- Of paths that are the same the first one, in the order in which they come. -/
def distinctPaths (paths : List String) : List String := paths.foldl addPath []

theorem distinctPaths_concat (paths : List String) (path : String) :
    distinctPaths (paths ++ [path]) = addPath (distinctPaths paths) path := by
  rw [distinctPaths, List.foldl_append]
  rfl

/-- A path is among others with new ones behind them if it is among either. -/
theorem any_same_append_filter (paths added : List String) (path : String) :
    (paths ++ added.filter fun other => !paths.any (Path.same other)).any (Path.same path) =
      (paths.any (Path.same path) || added.any (Path.same path)) := by
  rw [List.any_append]
  cases known : paths.any (Path.same path) with
  | true => rfl
  | false =>
      rw [Bool.false_or, Bool.false_or, List.any_filter]
      apply List.any_congr rfl
      intro other
      cases same : Path.same path other with
      | false => rw [Bool.and_false]
      | true =>
          -- The same path is among the others as little as this one.
          rw [Bool.and_true, Bool.not_eq_true', ← known, Bool.eq_iff_iff, any_same_iff,
            any_same_iff, same_iff.mp same]

/-- Paths that are added behind others leave these as they are, and are new ones. -/
theorem foldl_addPath_eq (paths added : List String) :
    added.foldl addPath paths =
      paths ++ (distinctPaths added).filter fun path => !paths.any (Path.same path) := by
  induction added using List.reverseRecOn with
  | nil => simp [distinctPaths]
  | append_singleton added path ih =>
      rw [List.foldl_append, List.foldl_cons, List.foldl_nil, ih, distinctPaths_concat, addPath,
        any_same_append_filter, addPath]
      cases known : paths.any (Path.same path) with
      | true =>
          rw [Bool.true_or, if_pos rfl]
          split
          · rfl
          · simp [known]
      | false =>
          rw [Bool.false_or]
          split
          · rfl
          · simp [known]

theorem distinctPaths_append (paths added : List String) :
    distinctPaths (paths ++ added) = distinctPaths paths ++
      (distinctPaths added).filter fun path => !(distinctPaths paths).any (Path.same path) := by
  rw [distinctPaths, List.foldl_append, foldl_addPath_eq]
  rfl

theorem pairwise_distinctPaths (paths : List String) :
    (distinctPaths paths).Pairwise fun path other => Path.same path other = false := by
  induction paths using List.reverseRecOn with
  | nil => exact .nil
  | append_singleton paths path ih =>
      rw [distinctPaths_concat, addPath]
      split
      · exact ih
      · next fresh =>
          refine List.pairwise_append.mpr ⟨ih, List.pairwise_singleton _ _, ?_⟩
          intro other member last same
          rw [List.mem_singleton.mp same, ← Bool.not_eq_true, same_iff]
          intro equal
          exact fresh (any_same_iff.mpr (equal ▸ List.mem_map_of_mem member))

theorem mem_of_mem_distinctPaths {paths : List String} {path : String}
    (member : path ∈ distinctPaths paths) : path ∈ paths := by
  induction paths using List.reverseRecOn with
  | nil => exact member
  | append_singleton paths last ih =>
      rw [distinctPaths_concat, addPath] at member
      split at member
      · exact List.mem_append_left _ (ih member)
      · rcases List.mem_append.mp member with earlier | here
        · exact List.mem_append_left _ (ih earlier)
        · exact List.mem_append_right _ here

theorem exists_same_of_mem {paths : List String} {path : String} (member : path ∈ paths) :
    ∃ other ∈ distinctPaths paths, Path.same path other = true := by
  obtain ⟨front, back, rfl⟩ := List.append_of_mem member
  rw [List.append_cons, distinctPaths_append, distinctPaths_concat, addPath]
  split
  · next known =>
      obtain ⟨other, listed, same⟩ := List.any_eq_true.mp known
      exact ⟨other, List.mem_append_left _ listed, same⟩
  · exact ⟨path, by simp, same_iff.mpr rfl⟩

/-! ### Patterns -/

/-- What a text on the command line stands for: a path for itself, and a pattern for the source
files among the paths that it matches. -/
inductive StandsFor (t : FileTree) (text : String) : String → Prop
  | path : isPattern text = false → StandsFor t text text
  | file {path : String} {found : List String} :
      isPattern text = true → expand t text = .ok found → path ∈ found →
      t.isFile path = true → isTypeScript path = true → StandsFor t text path

variable {t : FileTree}

theorem mem_sourcePaths {text path : String} {paths : List String}
    (expands : sourcePaths t text = .ok paths) : path ∈ paths ↔ StandsFor t text path := by
  unfold sourcePaths at expands
  split at expands
  · next pattern =>
      split at expands
      · next found expanded =>
          cases expands
          rw [List.mem_filter, Bool.and_eq_true]
          constructor
          · rintro ⟨member, isFile, isSource⟩
            exact .file pattern expanded member isFile isSource
          · intro stands
            cases stands with
            | path plain => exact absurd pattern (by simp [plain])
            | file _ expanded' member isFile isSource =>
                cases expanded.symm.trans expanded'
                exact ⟨member, isFile, isSource⟩
      · cases expands
  · next plain =>
      cases expands
      rw [List.mem_singleton]
      constructor
      · rintro rfl
        exact .path (by simpa using plain)
      · intro stands
        cases stands with
        | path => rfl
        | file pattern => exact absurd pattern plain

/-- The paths that a text stands for by itself, without any where it is no pattern. -/
def pathsOf (t : FileTree) (text : String) : List String := (sourcePaths t text).toOption.getD []

theorem pathsOf_eq {text : String} {paths : List String}
    (expands : sourcePaths t text = .ok paths) :
    pathsOf t text = paths := by
  rw [pathsOf, expands]
  rfl

theorem foldlM_sourcePaths_eq_ok {start texts paths : List String} :
    texts.foldlM (fun paths text => (sourcePaths t text).map (·.foldl addPath paths)) start =
        .ok paths ↔
      (∀ text ∈ texts, ∃ list, sourcePaths t text = .ok list) ∧
        paths = (texts.flatMap (pathsOf t)).foldl addPath start := by
  induction texts generalizing start with
  | nil => simp [pure, Except.pure, eq_comm]
  | cons text rest ih =>
      rw [List.foldlM_cons, List.forall_mem_cons, List.flatMap_cons, List.foldl_append]
      cases expands : sourcePaths t text with
      | error f => simp [Except.map, bind, Except.bind]
      | ok list =>
          rw [pathsOf_eq expands]
          simpa [Except.map, bind, Except.bind] using ih

/-- Patterns stand for the paths of each of them, without repetitions; they do if each does. -/
theorem allSourcePaths_eq_ok {texts paths : List String} :
    allSourcePaths t texts = .ok paths ↔
      (∀ text ∈ texts, ∃ list, sourcePaths t text = .ok list) ∧
        paths = distinctPaths (texts.flatMap (pathsOf t)) := foldlM_sourcePaths_eq_ok

/-- Patterns behind others stand for the paths of these, and behind them for those of their own that
are new. No path comes twice. There is a path, in one of its spellings, for all that a pattern
stands for, and nothing else. -/
theorem allSourcePaths_ordered_union (t : FileTree) :
    (∀ texts more paths, allSourcePaths t (texts ++ more) = .ok paths ↔
      ∃ first second, allSourcePaths t texts = .ok first ∧ allSourcePaths t more = .ok second ∧
        paths = first ++ second.filter fun path => !first.any (Path.same path)) ∧
    ∀ texts paths, allSourcePaths t texts = .ok paths →
      paths.Pairwise (fun path other => Path.same path other = false) ∧
      (∀ path ∈ paths, ∃ text ∈ texts, StandsFor t text path) ∧
      ∀ text ∈ texts, ∀ path, StandsFor t text path →
        ∃ other ∈ paths, Path.same path other = true := by
  refine ⟨fun texts more paths => ?_, fun texts paths expands => ?_⟩
  · simp only [allSourcePaths_eq_ok]
    rw [List.forall_mem_append, List.flatMap_append, distinctPaths_append]
    constructor
    · rintro ⟨⟨first, second⟩, rfl⟩
      exact ⟨_, _, ⟨first, rfl⟩, ⟨second, rfl⟩, rfl⟩
    · rintro ⟨_, _, ⟨first, rfl⟩, ⟨second, rfl⟩, same⟩
      exact ⟨⟨first, second⟩, same⟩
  · obtain ⟨each, rfl⟩ := allSourcePaths_eq_ok.mp expands
    refine ⟨pairwise_distinctPaths _, fun path member => ?_, fun text among path stands => ?_⟩
    · obtain ⟨text, among, found⟩ := List.mem_flatMap.mp (mem_of_mem_distinctPaths member)
      obtain ⟨list, alone⟩ := each text among
      rw [pathsOf_eq alone] at found
      exact ⟨text, among, (mem_sourcePaths alone).mp found⟩
    · obtain ⟨list, alone⟩ := each text among
      have found := (mem_sourcePaths alone).mpr stands
      rw [← pathsOf_eq alone] at found
      exact exists_same_of_mem (List.mem_flatMap.mpr ⟨text, among, found⟩)

/-- A directory with source files and another one. -/
def shelf : FileTree where
  current := ["w"]
  entries := [(["w"], .directory), (["w", "src"], .directory),
    (["w", "src", "a.tsx"], .file (some "")), (["w", "src", "b.ts"], .file (some "")),
    (["w", "src", "read.me"], .file (some ""))]

theorem expand_shelf :
    expand shelf "src/*" = .ok ["src/a.tsx", "src/b.ts", "src/read.me"] := by
  have whole : Pattern.read "src/*" =
      .ok ⟨"src/*", "src/".toList.map .literal ++ [.anyText]⟩ := by
    cbv
  have directory : Pattern.read "src" = .ok ⟨"src", "src".toList.map .literal⟩ := by cbv
  have star : Pattern.read "*" = .ok ⟨"*", [.anyText]⟩ := by cbv
  have parts : componentTexts "src/*".toList = ["src", "*"] := by decide +kernel
  have isRelative : Path.isAbsolute "src/*" = false := by decide +kernel
  have held : entries shelf "src" = ["src/a.tsx", "src/b.ts", "src/read.me"] := by
    have place : shelf.locate "src" = .ok ["w", "src"] := rfl
    have names : shelf.names ["w", "src"] = ["a.tsx", "b.ts", "read.me"] :=
      List.mergeSort_of_pairwise (by decide +kernel)
    simp only [entries, place, names]
    decide +kernel
  have found : expandFrom shelf false
      [⟨"src", "src".toList.map .literal⟩, ⟨"*", [.anyText]⟩] "." =
        ["src/a.tsx", "src/b.ts", "src/read.me"] := by
    simp only [expandFrom]
    rw [show behind "." "src" = "src" by decide +kernel, held]
    decide +kernel
  simp only [expand, whole, isRelative, Bool.false_eq_true, if_false, parts, List.mapM_cons,
    List.mapM_nil, directory, star]
  exact congrArg Except.ok found

/-- The file that a path has named already does not come again under another spelling. -/
theorem allSourcePaths_shelf :
    allSourcePaths shelf ["src//b.ts", "src/*"] = .ok ["src//b.ts", "src/a.tsx"] ∧
      StandsFor shelf "src/*" "src/b.ts" ∧
      ∃ other ∈ ["src//b.ts", "src/a.tsx"], Path.same "src/b.ts" other = true := by
  have alone : allSourcePaths shelf ["src//b.ts"] = .ok ["src//b.ts"] := by decide +kernel
  have matched : allSourcePaths shelf ["src/*"] = .ok ["src/a.tsx", "src/b.ts"] := by
    have pattern : isPattern "src/*" = true := by decide +kernel
    simp only [allSourcePaths, List.foldlM_cons, List.foldlM_nil, sourcePaths, pattern, if_true,
      expand_shelf]
    decide +kernel
  have expands : allSourcePaths shelf ["src//b.ts", "src/*"] =
      .ok ["src//b.ts", "src/a.tsx"] :=
    ((allSourcePaths_ordered_union shelf).1 ["src//b.ts"] ["src/*"] _).mpr
      ⟨_, _, alone, matched, by decide +kernel⟩
  have stands : StandsFor shelf "src/*" "src/b.ts" :=
    .file (by decide +kernel) expand_shelf (by decide) (by decide +kernel) (by decide +kernel)
  obtain ⟨_, _, complete⟩ := (allSourcePaths_ordered_union shelf).2 _ _ expands
  exact ⟨expands, stands, complete "src/*" (by decide) "src/b.ts" stands⟩

end TypeClosure.Glob

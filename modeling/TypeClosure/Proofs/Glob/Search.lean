import Mathlib.Data.List.Nodup
import Mathlib.Data.List.Perm.Subperm
import TypeClosure.Glob.Expansion
import TypeClosure.Proofs.FileTree.Destination
import TypeClosure.Proofs.Glob.Pattern

/-!
What the search for a pattern finds. A path that leads somewhere is found by patterns that retrace
it: one for each of its components, or `**` for some directories in front of one.
-/

namespace TypeClosure.Glob

open FileTree

variable {t : FileTree} {path name : String} {place next : List String}

/-! ### Names behind a path -/

theorem segments_of_properName (proper : ProperName name) :
    segments name.toList = [name.toList] := segments_of_noSlash proper.noSlash

theorem componentsOf_of_properName (proper : ProperName name) :
    Path.componentsOf [name.toList] = [.name name] := by
  rw [Path.componentsOf_cons, proper.notEmpty, if_neg Bool.false_ne_true, if_neg proper.notUp,
    String.ofList_toList]
  rfl

theorem isAbsolute_of_noSlash (noSlash : '/' ∉ name.toList) : Path.isAbsolute name = false := by
  rw [Path.isAbsolute, beq_eq_false_iff_ne]
  exact fun first => noSlash (List.mem_of_head? first)

/-- A path without components but the current directory leads there. -/
theorem eq_current_of_here (here : Path.components path = [.here])
    (located : t.locate path = .ok place) : place = t.current := by
  rw [eq_of_locate located, here]
  rfl

theorem components_of_noSlash (noSlash : '/' ∉ name.toList) (undotted : name ≠ ".") :
    Path.components name = Path.componentsOf [name.toList] := by
  have single := segments_of_noSlash noSlash
  have front : Path.front name = [] := by
    rw [Path.front, isAbsolute_of_noSlash noSlash, single, if_neg Bool.false_ne_true, if_neg]
    intro dotted
    exact undotted (String.toList_injective (Option.some.inj dotted))
  rw [Path.components_eq, front, single, List.nil_append]

/-- What stands behind a path leads where it leads from there. -/
theorem locate_behind (located : t.locate path = .ok place) (noSlash : '/' ∉ name.toList)
    (named : Path.components path = [.here] → name ≠ "")
    (walked : t.walk place [name.toList] = .ok next) :
    t.locate (behind path name) = .ok next := by
  have relative := isAbsolute_of_noSlash noSlash
  unfold behind
  split
  · next here =>
      rw [locate_eq_walk (named here), origin, relative, segments_of_noSlash noSlash]
      rw [eq_current_of_here here located] at walked
      exact walked
  · rw [locate_join (ne_empty_of_locate located) relative, located, segments_of_noSlash noSlash]
    exact walked

theorem fileName?_behind (located : t.locate path = .ok place) (proper : ProperName name) :
    Path.fileName? (behind path name) = some name := by
  rw [fileName?_eq_some]
  have last := componentsOf_of_properName proper
  unfold behind
  split
  · rw [components_of_noSlash proper.noSlash, last]
    · rfl
    · rintro rfl
      exact absurd proper.notEmpty (by decide)
  · rw [components_join (ne_empty_of_locate located) (isAbsolute_of_noSlash proper.noSlash),
      segments_of_properName proper, last]
    exact List.getLast?_concat

theorem here_not_mem_componentsOf (ss : List (List Char)) :
    Component.here ∉ Path.componentsOf ss := by
  induction ss with
  | nil => exact List.not_mem_nil
  | cons s ss ih =>
      rw [Path.componentsOf_cons]
      split
      · exact ih
      · split
        · simpa using ih
        · simpa using ih

/-- Only a dot behind the current directory stands for that directory alone. -/
theorem components_behind_eq_here (located : t.locate path = .ok place)
    (noSlash : '/' ∉ name.toList) (here : Path.components (behind path name) = [.here]) :
    Path.components path = [.here] ∧ name = "." := by
  unfold behind at here
  split at here
  · next above =>
      refine ⟨above, Classical.byContradiction fun undotted => ?_⟩
      rw [components_of_noSlash noSlash undotted] at here
      exact here_not_mem_componentsOf _ (here ▸ List.mem_singleton_self _)
  · next above =>
      rw [components_join (ne_empty_of_locate located) (isAbsolute_of_noSlash noSlash),
        List.append_eq_singleton_iff] at here
      rcases here with ⟨_, last⟩ | ⟨first, _⟩
      · exact absurd (last ▸ List.mem_singleton_self _) (here_not_mem_componentsOf _)
      · exact absurd first above

/-! ### Directories -/

theorem isDirectory_of_locate (located : t.locate path = .ok place)
    (directory : t.entryAt? place = some .directory) : t.isDirectory path = true := by
  rw [FileTree.isDirectory, FileTree.find?, located]
  exact beq_iff_eq.mpr directory

theorem exists_of_locate (located : t.locate path = .ok place)
    (held : (t.entryAt? place).isSome = true) : t.exists path = true := by
  rw [FileTree.exists, FileTree.find?, located]
  exact held

/-- What a directory holds is among its entries. -/
theorem behind_mem_entries (located : t.locate path = .ok place)
    (held : (t.entryAt? (place ++ [name])).isSome = true) : behind path name ∈ entries t path := by
  obtain ⟨entry, found⟩ := Option.isSome_iff_exists.mp held
  rw [entries, located]
  refine List.mem_map_of_mem ?_
  rw [FileTree.names, List.mem_mergeSort, List.mem_filterMap]
  exact ⟨_, mem_entries_of_entryAt? (by simp) found, by simp⟩

theorem walk_of_properName (proper : ProperName name)
    (walked : t.walk place [name.toList] = .ok next) :
    t.entryAt? place = some .directory ∧ next = place ++ [name] ∧
      (t.entryAt? next).isSome = true := by
  obtain ⟨directory, ⟨empty, _⟩ | ⟨up, _⟩ | ⟨_, _, arrived, held⟩⟩ := walk_step walked
  · exact absurd (proper.notEmpty.symm.trans empty) Bool.false_ne_true
  · exact absurd up proper.notUp
  · rw [String.ofList_toList] at arrived
    exact ⟨directory, arrived, held⟩

/-- On a way down there is an entry behind each of its names. -/
theorem mem_entries_of_walk {names : List String} (proper : ∀ name ∈ names, ProperName name)
    (walked : t.walk place (names.map String.toList) = .ok next) {k : Nat}
    (bound : k < names.length) : place ++ names.take (k + 1) ∈ t.entries.map Prod.fst := by
  induction names generalizing place k with
  | nil => exact absurd bound (Nat.not_lt_zero k)
  | cons name rest ih =>
      obtain ⟨here, below⟩ := List.forall_mem_cons.mp proper
      obtain ⟨_, first, walked⟩ := walk_cons_eq_ok.mp walked
      obtain ⟨_, rfl, held⟩ := walk_of_properName here first
      cases k with
      | zero =>
          obtain ⟨entry, found⟩ := Option.isSome_iff_exists.mp held
          exact List.mem_map_of_mem (mem_entries_of_entryAt? (by simp) found)
      | succ k =>
          have later := ih below walked (Nat.lt_of_succ_lt_succ bound)
          rwa [List.append_assoc] at later

/-- A way down has no more names than the tree has entries. -/
theorem length_le_of_walk {names : List String} (proper : ∀ name ∈ names, ProperName name)
    (walked : t.walk place (names.map String.toList) = .ok next) :
    names.length ≤ t.entries.length := by
  let places := (List.range names.length).map fun k => place ++ names.take (k + 1)
  have distinct : places.Nodup := by
    refine List.Nodup.map_on (fun k bound l bound' same => ?_) List.nodup_range
    have lengths := congrArg List.length same
    rw [List.mem_range] at bound bound'
    simp only [List.length_append, List.length_take] at lengths
    omega
  have inside : places ⊆ t.entries.map Prod.fst := by
    intro other member
    obtain ⟨k, bound, rfl⟩ := List.mem_map.mp member
    exact mem_entries_of_walk proper walked (List.mem_range.mp bound)
  have short := (List.Nodup.subperm distinct inside).length_le
  simpa [places] using short

/-! ### Everything below a directory -/

/-- Behind some directories one below the other, a name is reached from the first of them. -/
theorem exists_reached {found : String → List String} {between : List String} {n : Nat}
    (deep : between.length < n) (proper : ∀ other ∈ between ++ [name], ProperName other)
    (located : t.locate path = .ok place)
    (walked : t.walk place ((between ++ [name]).map String.toList) = .ok next) :
    ∃ child, t.locate child = .ok next ∧ Path.fileName? child = some name ∧
      ∀ result ∈ found child, result ∈ descend t found n path := by
  induction n generalizing between path place with
  | zero => exact absurd deep (Nat.not_lt_zero _)
  | succ n ih =>
      cases between with
      | nil =>
          have here := proper name (by simp)
          have ⟨directory, arrived, held⟩ := walk_of_properName here walked
          refine ⟨behind path name, locate_behind located here.noSlash (fun _ => here.ne_empty)
            walked, fileName?_behind located here, fun result member => ?_⟩
          rw [descend, if_pos (isDirectory_of_locate located directory), List.mem_flatMap]
          exact ⟨_, behind_mem_entries located (arrived ▸ held), List.mem_append_left _ member⟩
      | cons above below =>
          obtain ⟨here, deeper⟩ := List.forall_mem_cons.mp proper
          obtain ⟨_, first, walked⟩ := walk_cons_eq_ok.mp walked
          have ⟨directory, arrived, held⟩ := walk_of_properName here first
          obtain ⟨child, leads, named, reached⟩ := ih (Nat.lt_of_succ_lt_succ deep) deeper
            (locate_behind located here.noSlash (fun _ => here.ne_empty) first) walked
          refine ⟨child, leads, named, fun result member => ?_⟩
          rw [descend, if_pos (isDirectory_of_locate located directory), List.mem_flatMap]
          exact ⟨_, behind_mem_entries located (arrived ▸ held),
            List.mem_append_right _ (reached result member)⟩

/-! ### The search -/

/-- Patterns that lead along some components of a path: a literal one is its component, another one
matches it, and `**` stands for some names in front of one that the next pattern matches. -/
inductive Retraces : List Pattern → List String → Prop
  | nil : Retraces [] []
  | literal {p : Pattern} {ps : List Pattern} {names : List String} :
      p.isLiteral = true → '/' ∉ p.text.toList → Retraces ps names →
      Retraces (p :: ps) (p.text :: names)
  | wildcard {p : Pattern} {ps : List Pattern} {name : String} {names : List String} :
      p.isLiteral = false → p.isRecursive = false → ProperName name → p.matches name = true →
      Retraces ps names → Retraces (p :: ps) (name :: names)
  | recursive {p q : Pattern} {ps : List Pattern} {between : List String} {name : String}
      {names : List String} :
      p.isRecursive = true → (∀ other ∈ between ++ [name], ProperName other) →
      q.matches name = true → Retraces ps names →
      Retraces (p :: q :: ps) (between ++ name :: names)

theorem matchesName_of_fileName? {p : Pattern} {child : String}
    (named : Path.fileName? child = some name) : matchesName p child = p.matches name := by
  rw [matchesName, named]

section

variable (t) (directoriesOnly : Bool) (p q : Pattern) (ps : List Pattern) (path : String)

theorem expandFrom_literal (literal : p.isLiteral = true) :
    expandFrom t directoriesOnly (p :: ps) path =
      if leadsOn t path p.text (behind path p.text) then
        expandFrom t directoriesOnly ps (behind path p.text) else [] := by
  cases ps with
  | nil => simp only [expandFrom, literal, if_true]
  | cons q ps => simp only [expandFrom, literal, if_true]

theorem expandFrom_wildcard (special : p.isLiteral = false) (single : p.isRecursive = false) :
    expandFrom t directoriesOnly (p :: ps) path =
      if t.isDirectory path then
        (specials p).flatMap (fun name =>
          expandFrom t directoriesOnly ps (Path.join path name)) ++
        ((entries t path).filter (matchesName p)).flatMap (expandFrom t directoriesOnly ps)
      else [] := by
  cases ps with
  | nil => simp only [expandFrom, special, single, Bool.false_eq_true, if_false]
  | cons q ps => simp only [expandFrom, special, single, Bool.false_eq_true, if_false]

theorem expandFrom_recursive (recursive : p.isRecursive = true) :
    expandFrom t directoriesOnly (p :: q :: ps) path =
      descend t (fun child =>
        if matchesName q child then expandFrom t directoriesOnly ps child else [])
        (t.entries.length + 1) path := by
  rw [expandFrom, if_neg (by simp [Pattern.isLiteral_of_isRecursive recursive]),
    if_pos recursive]

end

/-- Where a literal component leads on a way, the search goes on. -/
theorem leadsOn_behind (located : t.locate path = .ok place)
    (led : t.locate (behind path name) = .ok next)
    (walked : t.walk place [name.toList] = .ok next) :
    leadsOn t path name (behind path name) = true := by
  obtain ⟨directory, step⟩ := walk_step walked
  unfold leadsOn
  split
  · exact isDirectory_of_locate located directory
  · next plain =>
      refine exists_of_locate led ?_
      rcases step with ⟨_, rfl⟩ | ⟨up, _⟩ | ⟨_, _, _, held⟩
      · rw [directory]
        rfl
      · have up : name = ".." := String.toList_injective up
        exact absurd (by simp [up]) plain
      · exact held

/-- What is found behind the last name of a way has this name. -/
theorem fileName?_of_last {names : List String} {child found : String}
    (alone : names = [] → found = child)
    (later : ∀ last ∈ names.getLast?, ProperName last → Path.fileName? found = some last)
    (here : ProperName name → Path.fileName? child = some name) :
    ∀ last ∈ (name :: names).getLast?, ProperName last → Path.fileName? found = some last := by
  cases names with
  | nil =>
      intro last same
      cases same
      rw [alone rfl]
      exact here
  | cons other names => exact later

/-- What a way leads to is found by patterns that retrace the way. From the current directory, no
empty component may follow before one with a name. -/
theorem Retraces.exists_found {ps : List Pattern} {names : List String}
    (retraces : Retraces ps names) (located : t.locate path = .ok place)
    (start : Path.components path = [.here] → (names.dropWhile (· = ".")).head? ≠ some "")
    (walked : t.walk place (names.map String.toList) = .ok next) :
    ∃ found ∈ expandFrom t false ps path, t.locate found = .ok next ∧
      (names = [] → found = path) ∧
      ∀ last ∈ names.getLast?, ProperName last → Path.fileName? found = some last := by
  -- Only behind the current directory itself may an empty component stand in the way.
  have named {child : String} (name : Path.fileName? child ≠ none) :
      Path.components child ≠ [.here] := by
    intro here
    rw [Path.fileName?, here] at name
    exact name rfl
  induction retraces generalizing path place with
  | nil =>
      cases walked
      exact ⟨path, by simp [expandFrom], located, fun _ => rfl, fun _ none => nomatch none⟩
  | @literal p ps names isLiteral noSlash _ ih =>
      obtain ⟨middle, first, rest⟩ := walk_cons_eq_ok.mp walked
      have notEmpty : Path.components path = [.here] → p.text ≠ "" := by
        intro here empty
        exact start here (by simp [empty])
      have led := locate_behind located noSlash notEmpty first
      have start' : Path.components (behind path p.text) = [.here] →
          (names.dropWhile (· = ".")).head? ≠ some "" := by
        intro here
        obtain ⟨above, dot⟩ := components_behind_eq_here located noSlash here
        simpa [dot] using start above
      obtain ⟨found, member, arrived, alone, last⟩ := ih led start' rest
      refine ⟨found, ?_, arrived, fun none => absurd none (List.cons_ne_nil _ _),
        fileName?_of_last alone last fun proper => fileName?_behind located proper⟩
      rw [expandFrom_literal t false p ps path isLiteral,
        if_pos (leadsOn_behind located led first)]
      exact member
  | @wildcard p ps name names special single proper here _ ih =>
      obtain ⟨middle, first, rest⟩ := walk_cons_eq_ok.mp walked
      obtain ⟨directory, eq, held⟩ := walk_of_properName proper first
      have led := locate_behind located proper.noSlash (fun _ => proper.ne_empty) first
      have called := fileName?_behind located proper
      obtain ⟨found, member, arrived, alone, last⟩ :=
        ih led (fun here => absurd here (named (by simp [called]))) rest
      refine ⟨found, ?_, arrived, fun none => absurd none (List.cons_ne_nil _ _),
        fileName?_of_last alone last fun _ => called⟩
      rw [expandFrom_wildcard t false p ps path special single,
        if_pos (isDirectory_of_locate located directory)]
      have among : behind path name ∈ (entries t path).filter (matchesName p) := by
        refine List.mem_filter.mpr ⟨behind_mem_entries located (eq ▸ held), ?_⟩
        rw [matchesName_of_fileName? called]
        exact here
      exact List.mem_append_right _ (List.mem_flatMap.mpr ⟨_, among, member⟩)
  | @recursive p q ps between name names recursive proper here _ ih =>
      rw [← List.singleton_append, ← List.append_assoc, List.map_append,
        walk_append_eq_ok] at walked
      obtain ⟨middle, first, rest⟩ := walked
      have deep : between.length < t.entries.length + 1 := by
        have := length_le_of_walk proper first
        rw [List.length_append] at this
        omega
      obtain ⟨child, led, called, reached⟩ := exists_reached deep proper located first
      obtain ⟨found, member, arrived, alone, last⟩ :=
        ih led (fun here => absurd here (named (by simp [called]))) rest
      refine ⟨found, ?_, arrived, fun none => absurd none (by simp), ?_⟩
      · rw [expandFrom_recursive t false p q ps path recursive]
        refine reached found ?_
        rw [matchesName_of_fileName? called, here]
        exact member
      · rw [List.getLast?_append_cons]
        exact fileName?_of_last alone last fun _ => called

/-! ### What is found -/

theorem eq_of_mem_expandFrom_nil {directoriesOnly : Bool} {found : String}
    (member : found ∈ expandFrom t directoriesOnly [] path) : found = path := by
  rw [expandFrom] at member
  split at member
  · exact absurd member List.not_mem_nil
  · exact List.mem_singleton.mp member

theorem exists_of_mem_descend {f : String → List String} {n : Nat} {found : String}
    (member : found ∈ descend t f n path) : ∃ child, found ∈ f child := by
  induction n generalizing path with
  | zero => exact absurd member List.not_mem_nil
  | succ n ih =>
      rw [descend] at member
      split at member
      · obtain ⟨child, _, inside⟩ := List.mem_flatMap.mp member
        rcases List.mem_append.mp inside with here | below
        · exact ⟨child, here⟩
        · exact ih below
      · exact absurd member List.not_mem_nil

/-- Behind `**` a pattern that matches no name finds nothing. -/
theorem expandFrom_of_no_name {directoriesOnly : Bool} {p q : Pattern} {ps : List Pattern}
    (recursive : p.isRecursive = true)
    (never : ∀ name, Path.isEmptySegment name.toList = false → q.matches name = false) :
    expandFrom t directoriesOnly (p :: q :: ps) path = [] := by
  rw [expandFrom_recursive t _ _ _ _ _ recursive, List.eq_nil_iff_forall_not_mem]
  intro found member
  obtain ⟨child, inside⟩ := exists_of_mem_descend member
  split at inside
  · next here =>
      cases named : Path.fileName? child with
      | none =>
          rw [matchesName, named] at here
          cases here
      | some name =>
          have unmatched := never name (isEmptySegment_of_fileName? named)
          rw [matchesName_of_fileName? named, unmatched] at here
          cases here
  · exact absurd inside List.not_mem_nil

theorem mem_specials {p : Pattern} (member : name ∈ specials p) : name = ".." ∨ name = "." := by
  unfold specials at member
  split at member
  · simpa using (List.mem_filter.mp member).1
  · exact absurd member List.not_mem_nil

/-- A dot behind a directory is no file, and two dots have no name. -/
theorem not_named_file_of_special (directory : t.isDirectory path = true)
    (special : name = ".." ∨ name = ".") :
    t.isFile (Path.join path name) = false ∨ Path.fileName? (Path.join path name) = none := by
  have found : t.find? path = some .directory := beq_iff_eq.mp directory
  cases located : t.locate path with
  | error fault =>
      rw [FileTree.find?, located] at found
      cases found
  | ok place =>
      have nonempty := ne_empty_of_locate located
      rcases special with rfl | rfl
      · refine .inr ?_
        rw [Path.fileName?, components_join nonempty rfl]
        have up : Path.componentsOf (segments "..".toList) = [.up] := by decide +kernel
        rw [up, List.getLast?_concat]
      · refine .inl ?_
        rw [FileTree.find?, located] at found
        have here : t.locate (Path.join path ".") = .ok place := by
          rw [locate_join nonempty rfl, located]
          change t.walk place [['.']] = .ok place
          simp [walk, found, Path.isEmptySegment]
        rw [FileTree.isFile, FileTree.find?, here, found]

/-- What is found by the last pattern alone has a name that matches it, unless it is `..` or no
file. -/
theorem matchesName_of_mem_single {directoriesOnly : Bool} {p : Pattern} {found : String}
    (special : p.isLiteral = false) (single : p.isRecursive = false) (file : t.isFile found = true)
    (named : Path.fileName? found ≠ none) (member : found ∈ expandFrom t directoriesOnly [p] path) :
    matchesName p found = true := by
  rw [expandFrom_wildcard t _ _ _ _ special single] at member
  split at member
  · next directory =>
      rcases List.mem_append.mp member with dots | below
      · obtain ⟨name, among, inside⟩ := List.mem_flatMap.mp dots
        have same := eq_of_mem_expandFrom_nil inside
        rcases not_named_file_of_special directory (mem_specials among) with none | none
        · rw [same, none] at file
          cases file
        · exact absurd (same ▸ none) named
      · obtain ⟨child, among, inside⟩ := List.mem_flatMap.mp below
        rw [eq_of_mem_expandFrom_nil inside]
        exact (List.mem_filter.mp among).2
  · exact absurd member List.not_mem_nil

/-- The step: what is found is found by the other patterns further on; behind `**` the next one has
matched already. -/
theorem exists_of_mem_expandFrom {directoriesOnly : Bool} {p q : Pattern} {ps : List Pattern}
    {found : String} (member : found ∈ expandFrom t directoriesOnly (p :: q :: ps) path) :
    (∃ child, found ∈ expandFrom t directoriesOnly (q :: ps) child) ∨
      ∃ child, matchesName q child = true ∧ found ∈ expandFrom t directoriesOnly ps child := by
  cases literal : p.isLiteral with
  | true =>
      rw [expandFrom_literal t _ _ _ _ literal] at member
      split at member
      · exact .inl ⟨_, member⟩
      · exact absurd member List.not_mem_nil
  | false =>
      cases recursive : p.isRecursive with
      | true =>
          rw [expandFrom_recursive t _ _ _ _ _ recursive] at member
          obtain ⟨child, inside⟩ := exists_of_mem_descend member
          split at inside
          · next here => exact .inr ⟨child, here, inside⟩
          · exact absurd inside List.not_mem_nil
      | false =>
          rw [expandFrom_wildcard t _ _ _ _ literal recursive] at member
          split at member
          · rcases List.mem_append.mp member with dots | below
            · obtain ⟨name, _, inside⟩ := List.mem_flatMap.mp dots
              exact .inl ⟨_, inside⟩
            · obtain ⟨child, _, inside⟩ := List.mem_flatMap.mp below
              exact .inl ⟨_, inside⟩
          · exact absurd member List.not_mem_nil

/-- The run: the name of a file that is found matches the last pattern. -/
theorem matchesName_of_mem_expandFrom {directoriesOnly : Bool} {last : Pattern}
    (special : last.isLiteral = false) (single : last.isRecursive = false) {found : String}
    (file : t.isFile found = true) (named : Path.fileName? found ≠ none) :
    (ps : List Pattern) → {path : String} → ps.getLast? = some last →
      found ∈ expandFrom t directoriesOnly ps path → matchesName last found = true
  | [p], path, ends, member => by
      obtain rfl : p = last := Option.some.inj ends
      exact matchesName_of_mem_single special single file named member
  | p :: q :: ps, path, ends, member => by
      rcases exists_of_mem_expandFrom member with ⟨child, inside⟩ | ⟨child, here, inside⟩
      · exact matchesName_of_mem_expandFrom special single file named (q :: ps) ends inside
      · cases ps with
        | nil =>
            obtain rfl : q = last := Option.some.inj ends
            rw [eq_of_mem_expandFrom_nil inside]
            exact here
        | cons r ps =>
            exact matchesName_of_mem_expandFrom special single file named (r :: ps) ends inside

end TypeClosure.Glob

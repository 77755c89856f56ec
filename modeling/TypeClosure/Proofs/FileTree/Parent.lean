import TypeClosure.Proofs.FileTree.Walk

/-! The parent of a path to a file leads to the directory of the file. -/

namespace TypeClosure.FileTree

variable {t : FileTree}

/-- There is a file at a place. -/
def FileAt (t : FileTree) (place : List String) : Prop :=
  ∃ text, t.entryAt? place = some (.file text)

theorem FileAt.ne_directory {place : List String} (file : t.FileAt place) :
    t.entryAt? place ≠ some .directory := by
  obtain ⟨text, found⟩ := file
  rw [found]
  exact fun same => Entry.noConfusion (Option.some.inj same)

/-- A walk to a file ends with a step to a name in the file's directory. -/
theorem walk_to_file {start place : List String} {ss : List (List Char)}
    (grounded : Grounded t start) (noSlash : ∀ s ∈ ss, '/' ∉ s) (nonempty : ss ≠ [])
    (walked : t.walk start ss = .ok place) (file : t.FileAt place) :
    ∃ init last, ss = init ++ [last] ∧ Path.isEmptySegment last = false ∧
      t.walk start init = .ok place.dropLast ∧
      place = place.dropLast ++ [String.ofList last] := by
  obtain ⟨init, last, rfl⟩ : ∃ init last, ss = init ++ [last] :=
    ⟨_, _, (List.dropLast_concat_getLast nonempty).symm⟩
  obtain ⟨directory, above, step⟩ := walk_append_eq_ok.mp walked
  have grounded' := grounded.walk (fun s member => noSlash s (by simp [member])) above
  obtain ⟨isDirectory, ⟨_, rfl⟩ | ⟨_, rfl⟩ | ⟨named, _, rfl, _⟩⟩ := walk_step step
  · exact absurd isDirectory file.ne_directory
  · exact absurd grounded'.entryAt?_dropLast file.ne_directory
  · refine ⟨init, last, rfl, named, ?_, ?_⟩
    · rw [List.dropLast_concat]
      exact above
    · rw [List.dropLast_concat]

theorem walk_of_empty {place next : List String} {ss : List (List Char)}
    (empty : ∀ s ∈ ss, Path.isEmptySegment s = true) (walked : t.walk place ss = .ok next) :
    next = place := by
  induction ss with
  | nil =>
      cases walked
      rfl
  | cons s ss ih =>
      have here := empty s (by simp)
      obtain ⟨middle, first, rest⟩ := walk_cons_eq_ok.mp walked
      obtain ⟨_, ⟨_, rfl⟩ | ⟨up, _⟩ | ⟨named, _⟩⟩ := walk_step first
      · exact ih (fun r member => empty r (List.mem_cons_of_mem _ member)) rest
      · rw [up] at here
        contradiction
      · rw [named] at here
        contradiction

/-- Segments without the last ones that say nothing. -/
def trimmed (ss : List (List Char)) : List (List Char) :=
  (ss.reverse.dropWhile Path.isEmptySegment).reverse

theorem trimmed_append (ss : List (List Char)) :
    ∃ empties, ss = trimmed ss ++ empties ∧ ∀ s ∈ empties, Path.isEmptySegment s = true := by
  refine ⟨(ss.reverse.takeWhile Path.isEmptySegment).reverse, ?_, ?_⟩
  · rw [trimmed, ← List.reverse_append, List.takeWhile_append_dropWhile, List.reverse_reverse]
  · intro s member
    rw [List.mem_reverse] at member
    exact List.all_eq_true.mp (List.all_takeWhile) s member

theorem getLast?_trimmed {ss : List (List Char)} {s : List Char}
    (last : (trimmed ss).getLast? = some s) : Path.isEmptySegment s = false := by
  rw [trimmed, List.getLast?_reverse] at last
  have := List.head?_dropWhile_not Path.isEmptySegment ss.reverse
  rw [last] at this
  simpa using this

theorem walk_trimmed {place next : List String} {ss : List (List Char)}
    (walked : t.walk place ss = .ok next) : t.walk place (trimmed ss) = .ok next := by
  obtain ⟨empties, eq, empty⟩ := trimmed_append ss
  rw [eq, walk_append_eq_ok] at walked
  obtain ⟨middle, first, rest⟩ := walked
  rw [walk_of_empty empty rest, first]

theorem parent?_of_segments {path : String} {lead body : List Char}
    {init : List (List Char)} {last : List Char} (leads : Path.lead path.toList = (lead, body))
    (cut : segments body = init ++ [last]) (named : Path.isEmptySegment last = false) :
    Path.parent? path = some (String.ofList (lead ++ joinSegments (trimmed init))) := by
  rw [Path.parent?, leads]
  simp only [cut, List.reverse_append, List.reverse_singleton, List.singleton_append]
  rw [List.dropWhile_cons_of_neg (by simp [named])]
  rfl

/-! ### Directories that paths are joined to -/

/-- The place of a directory that paths are joined to; the empty path is the current directory. -/
def enter (t : FileTree) (directory : String) : Except Fault (List String) :=
  if directory = "" then .ok t.current else t.locate directory

theorem enter_of_ne_empty {directory : String} (nonempty : directory ≠ "") :
    t.enter directory = t.walk (t.origin directory) (segments directory.toList) := by
  rw [enter, if_neg nonempty, locate_eq_walk nonempty]

theorem ofList_cons_ne_empty (c : Char) (cs : List Char) : String.ofList (c :: cs) ≠ "" := by
  intro empty
  have := congrArg String.toList empty
  rw [String.toList_ofList] at this
  exact List.cons_ne_nil _ _ this

theorem enter_slash {ss : List (List Char)} (noSlash : ∀ s ∈ ss, '/' ∉ s) :
    t.enter (String.ofList ('/' :: joinSegments ss)) = t.walk [] ss := by
  rw [enter_of_ne_empty (ofList_cons_ne_empty _ _), origin, Path.isAbsolute, String.toList_ofList]
  change t.walk [] (segments (joinSegments ss)) = t.walk [] ss
  cases ss with
  | nil => rfl
  | cons s ss => rw [segments_joinSegments (List.cons_ne_nil _ _) noSlash]

theorem enter_dot {ss : List (List Char)} (noSlash : ∀ s ∈ ss, '/' ∉ s)
    (isDirectory : t.entryAt? t.current = some .directory)
    (shape : ss = [] ∨ ∃ s tail, ss = [] :: s :: tail) :
    t.enter (String.ofList ('.' :: joinSegments ss)) = t.walk t.current ss := by
  rw [enter_of_ne_empty (ofList_cons_ne_empty _ _), origin, Path.isAbsolute, String.toList_ofList]
  change t.walk t.current (segments ('.' :: joinSegments ss)) = t.walk t.current ss
  rcases shape with rfl | ⟨s, tail, rfl⟩
  · simp [joinSegments, segments, walk, isDirectory, Path.isEmptySegment]
  · rw [segments_cons (by decide) (segments_joinSegments (List.cons_ne_nil _ _) noSlash)]
    simp [walk, isDirectory, Path.isEmptySegment]

theorem enter_relative {ss : List (List Char)} (noSlash : ∀ s ∈ ss, '/' ∉ s)
    (shape : ss = [] ∨ joinSegments ss ≠ [] ∧ (joinSegments ss).head? ≠ some '/') :
    t.enter (String.ofList (joinSegments ss)) = t.walk t.current ss := by
  rcases shape with rfl | ⟨nonempty, notAbsolute⟩
  · rfl
  · have notEmpty : String.ofList (joinSegments ss) ≠ "" := by
      intro empty
      have := congrArg String.toList empty
      rw [String.toList_ofList] at this
      exact nonempty this
    have relative : Path.isAbsolute (String.ofList (joinSegments ss)) = false := by
      rw [Path.isAbsolute, String.toList_ofList]
      exact beq_eq_false_iff_ne.mpr notAbsolute
    rw [enter_of_ne_empty notEmpty, origin, relative, String.toList_ofList,
      segments_joinSegments ?_ noSlash]
    · rfl
    · rintro rfl
      exact nonempty rfl

theorem lead_cases (path : List Char) :
    (∃ rest, path = '/' :: rest ∧ Path.lead path = (['/'], rest)) ∨
      path = ['.'] ∨
      (∃ rest, path = '.' :: '/' :: rest ∧ Path.lead path = (['.'], '/' :: rest)) ∨
      (path.head? ≠ some '/' ∧ Path.lead path = ([], path)) := by
  unfold Path.lead
  split
  · exact .inl ⟨_, rfl, rfl⟩
  · exact .inr (.inl rfl)
  · exact .inr (.inr (.inl ⟨_, rfl, rfl⟩))
  · next notSlash _ _ =>
      refine .inr (.inr (.inr ⟨?_, rfl⟩))
      intro first
      obtain ⟨rest, eq⟩ := List.head?_eq_some_iff.mp first
      exact notSlash rest eq

theorem head?_of_segments {cs : List Char} {ss : List (List Char)} (more : ss ≠ [])
    (cut : segments cs = [] :: ss) : cs.head? = some '/' := by
  cases cs with
  | nil =>
      rw [segments_nil] at cut
      exact absurd (List.cons.inj cut).2.symm more
  | cons c cs =>
      by_cases slash : c = '/'
      · rw [slash]
        rfl
      · obtain ⟨s, rest, eq⟩ := List.exists_cons_of_ne_nil (segments_ne_nil cs)
        rw [segments_cons slash eq] at cut
        exact absurd (List.cons.inj cut).1 (List.cons_ne_nil _ _)

/-- What is left of a relative path is relative. -/
theorem trimmed_relative {cs last : List Char} {init more : List (List Char)}
    (cut : segments cs = init ++ last :: more) (relative : cs.head? ≠ some '/') :
    trimmed init = [] ∨
      joinSegments (trimmed init) ≠ [] ∧ (joinSegments (trimmed init)).head? ≠ some '/' := by
  obtain ⟨empties, eq, _⟩ := trimmed_append init
  cases kept : trimmed init with
  | nil => exact .inl rfl
  | cons s ss =>
      rw [kept] at eq
      have whole : segments cs = s :: (ss ++ empties ++ last :: more) := by
        rw [cut, eq]
        rfl
      have inside : s ∈ segments cs := by
        rw [whole]
        exact List.mem_cons_self
      have noSlash : '/' ∉ s := noSlash_of_mem_segments inside
      cases s with
      | nil => exact absurd (head?_of_segments (by simp) whole) relative
      | cons c s =>
          have starts : (joinSegments ((c :: s) :: ss)).head? = some c := by
            cases ss with
            | nil => rfl
            | cons r rs =>
                rw [joinSegments_cons (List.cons_ne_nil _ _)]
                rfl
          refine .inr ⟨?_, ?_⟩
          · intro empty
            rw [empty] at starts
            contradiction
          · intro slash
            rw [starts] at slash
            exact noSlash (by simp [Option.some.inj slash])

/-- What is left behind a leading dot still has the slash after it. -/
theorem trimmed_behind_dot {rest last : List Char} {init more : List (List Char)}
    (cut : segments ('/' :: rest) = init ++ last :: more) :
    trimmed init = [] ∨ ∃ s tail, trimmed init = [] :: s :: tail := by
  obtain ⟨empties, eq, _⟩ := trimmed_append init
  cases kept : trimmed init with
  | nil => exact .inl rfl
  | cons s ss =>
      rw [kept] at eq
      rw [segments_slash, eq] at cut
      have first : s = [] := (List.cons.inj cut).1.symm
      cases ss with
      | nil =>
          have ends : (trimmed init).getLast? = some s := by
            rw [kept]
            rfl
          have named := getLast?_trimmed ends
          rw [first] at named
          contradiction
      | cons r rs => exact .inr ⟨r, rs, by rw [first]⟩

theorem parent?_of_walk {path : String} {lead body : List Char} {start place : List String}
    (leads : Path.lead path.toList = (lead, body)) (grounded : Grounded t start)
    (walked : t.walk start (segments body) = .ok place) (file : t.FileAt place) :
    ∃ init last, segments body = init ++ [last] ∧
      Path.parent? path = some (String.ofList (lead ++ joinSegments (trimmed init))) ∧
      (∀ s ∈ trimmed init, '/' ∉ s) ∧ t.walk start (trimmed init) = .ok place.dropLast := by
  obtain ⟨init, last, cut, named, above, _⟩ := walk_to_file grounded
    (fun _ => noSlash_of_mem_segments) (segments_ne_nil body) walked file
  refine ⟨init, last, cut, parent?_of_segments leads cut named, ?_, walk_trimmed above⟩
  intro s member
  obtain ⟨empties, eq, _⟩ := trimmed_append init
  have inside : s ∈ segments body := by
    rw [cut, eq]
    simp [member]
  exact noSlash_of_mem_segments inside

/-- However a file is spelled, its parent leads to the directory in which it stands. -/
theorem enter_parent? (anchored : t.Anchored) {path : String} {place : List String}
    (located : t.locate path = .ok place) (file : t.FileAt place) :
    ∃ directory, Path.parent? path = some directory ∧
      t.enter directory = .ok place.dropLast := by
  have walked := located
  rw [locate_eq_walk (ne_empty_of_locate located)] at walked
  rcases lead_cases path.toList with ⟨rest, eq, leads⟩ | eq | ⟨rest, eq, leads⟩ | ⟨relative, leads⟩
  · rw [origin, Path.isAbsolute, eq, segments_slash] at walked
    have inside : t.walk [] (segments rest) = .ok place := walked
    obtain ⟨init, last, cut, parent, noSlash, above⟩ := parent?_of_walk leads .root inside file
    refine ⟨_, parent, ?_⟩
    rw [List.singleton_append, enter_slash noSlash]
    exact above
  · have here := walk_to_file (grounded_origin anchored located) (fun _ => noSlash_of_mem_segments)
      (segments_ne_nil path.toList) walked file
    obtain ⟨init, last, cut, named, _⟩ := here
    rw [eq] at cut
    have same : last = ['.'] := by
      have := congrArg List.getLast? cut
      rw [List.getLast?_concat] at this
      exact (Option.some.inj this).symm
    rw [same] at named
    contradiction
  · rw [origin, Path.isAbsolute, eq] at walked
    change t.walk t.current (segments ('.' :: '/' :: rest)) = .ok place at walked
    rw [segments_cons (by decide) (segments_slash rest)] at walked
    have isDirectory := directory_of_walk (List.cons_ne_nil _ _) walked
    rw [walk_emptySegment _ rfl (segments_ne_nil rest)] at walked
    have inside : t.walk t.current (segments ('/' :: rest)) = .ok place := by
      rw [segments_slash, walk_emptySegment _ rfl (segments_ne_nil rest), walked]
    obtain ⟨init, last, cut, parent, noSlash, above⟩ :=
      parent?_of_walk leads (grounded_current anchored isDirectory) inside file
    refine ⟨_, parent, ?_⟩
    rw [List.singleton_append, enter_dot noSlash isDirectory (trimmed_behind_dot cut)]
    exact above
  · have start : t.origin path = t.current := by
      rw [origin, Path.isAbsolute, beq_eq_false_iff_ne.mpr relative]
      rfl
    rw [start] at walked
    have isDirectory := directory_of_walk (segments_ne_nil path.toList) walked
    obtain ⟨init, last, cut, parent, noSlash, above⟩ :=
      parent?_of_walk leads (grounded_current anchored isDirectory) walked file
    refine ⟨_, parent, ?_⟩
    rw [List.nil_append, enter_relative noSlash (trimmed_relative cut relative)]
    exact above

end TypeClosure.FileTree

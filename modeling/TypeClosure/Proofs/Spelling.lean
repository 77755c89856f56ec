import TypeClosure.Closure.Follow
import TypeClosure.Proofs.FileTree.Resolution

/-! However a file is spelled, it holds the same. -/

namespace TypeClosure

variable {t : FileTree}

namespace FileTree

/-- The endings of a path to a file, as far as they hold no slash, are those of the file's name. -/
theorem suffix_iff_of_locate (anchored : t.Anchored) {path : String} {place : List String}
    (located : t.locate path = .ok place) (file : t.FileAt place) :
    ∃ name, place.getLast? = some name ∧
      ∀ ending : List Char, '/' ∉ ending → (ending <:+ path.toList ↔ ending <:+ name.toList) := by
  have grounded := grounded_origin anchored located
  rw [locate_eq_walk (ne_empty_of_locate located)] at located
  obtain ⟨init, last, cut, _, _, named⟩ := walk_to_file grounded
    (fun _ => noSlash_of_mem_segments) (segments_ne_nil path.toList) located file
  refine ⟨String.ofList last, ?_, ?_⟩
  · rw [named, List.getLast?_concat]
  · intro ending noSlash
    rw [String.toList_ofList]
    exact isSuffix_iff_of_segments noSlash cut

theorem dialect_ofPath_congr (anchored : t.Anchored) {path other : String} {place : List String}
    (located : t.locate path = .ok place) (located' : t.locate other = .ok place)
    (file : t.FileAt place) : Grammar.Dialect.ofPath path = Grammar.Dialect.ofPath other := by
  obtain ⟨name, last, ends⟩ := suffix_iff_of_locate anchored located file
  obtain ⟨name', last', ends'⟩ := suffix_iff_of_locate anchored located' file
  cases Option.some.inj (last.symm.trans last')
  have same {ending : List Char} (noSlash : '/' ∉ ending) :
      ending.isSuffixOf path.toList = ending.isSuffixOf other.toList := by
    rw [Bool.eq_iff_iff, List.isSuffixOf_iff_suffix, List.isSuffixOf_iff_suffix, ends _ noSlash,
      ends' _ noSlash]
  rw [Grammar.Dialect.ofPath, Grammar.Dialect.ofPath, same (by decide), same (by decide)]

end FileTree

theorem outline?_congr {path other : String}
    (same : Grammar.Dialect.ofPath path = Grammar.Dialect.ofPath other) (text : List Char) :
    outline? path text = outline? other text := by
  rw [outline?, outline?, same]

namespace FileTree

theorem readText_eq_ok {path text : String} :
    t.readText path = .ok text ↔
      ∃ place, t.locate path = .ok place ∧ t.entryAt? place = some (.file (some text)) := by
  unfold readText
  cases t.locate path with
  | error fault => simp [bind, Except.bind]
  | ok place =>
      simp only [bind, Except.bind, Except.ok.injEq, exists_eq_left']
      split
      · next entry => simp [entry]
      · next entry => simp [entry]
      · next entry => simp [entry]
      · next entry => simp [entry]

theorem readSource_eq_ok {path : String} {s : Source} :
    t.readSource path = .ok s ↔
      ∃ text, t.readText path = .ok text ∧ Source.read? path text = some s := by
  unfold readSource
  cases t.readText path with
  | error fault => simp
  | ok text =>
      dsimp only
      cases read : Source.read? path text with
      | none => simp [read]
      | some source => simp [read]

theorem path_of_readSource {path : String} {s : Source} (read : t.readSource path = .ok s) :
    s.path = path := by
  obtain ⟨text, _, found⟩ := readSource_eq_ok.mp read
  rw [Source.read?, Option.map_eq_some_iff] at found
  obtain ⟨items, _, rfl⟩ := found
  rfl

/-- What can be read is a file. -/
theorem placeOfFile?_of_readSource {path : String} {s : Source}
    (read : t.readSource path = .ok s) : ∃ place, t.placeOfFile? path = some place := by
  obtain ⟨text, found, _⟩ := readSource_eq_ok.mp read
  obtain ⟨place, located, entry⟩ := readText_eq_ok.mp found
  exact ⟨place, placeOfFile?_eq_some.mpr ⟨located, some text, entry⟩⟩

/-- Two spellings of a file are read to the same contents. -/
theorem readSource_congr (anchored : t.Anchored) {path other : String} {place : List String}
    (located : t.locate path = .ok place) (located' : t.locate other = .ok place) {s : Source}
    (read : t.readSource path = .ok s) :
    ∃ s', t.readSource other = .ok s' ∧ s'.contents = s.contents := by
  obtain ⟨text, found, parsed⟩ := readSource_eq_ok.mp read
  obtain ⟨place', here, entry⟩ := readText_eq_ok.mp found
  cases Except.ok.inj (here.symm.trans located)
  have dialect := dialect_ofPath_congr anchored located located' ⟨some text, entry⟩
  rw [Source.read?, Option.map_eq_some_iff] at parsed
  obtain ⟨items, outlined, rfl⟩ := parsed
  rw [outline?_congr dialect] at outlined
  have found' := readText_eq_ok.mpr ⟨place, located', entry⟩
  refine ⟨⟨other, _, items⟩, readSource_eq_ok.mpr ⟨text, found', ?_⟩, rfl⟩
  rw [Source.read?, outlined, Option.map_some]

end FileTree

end TypeClosure

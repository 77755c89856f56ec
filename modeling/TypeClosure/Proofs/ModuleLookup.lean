import TypeClosure.Proofs.FileTree.Resolution

/-!
In which order the file of a module is looked for, and what a file that is added to a tree can
change: only that it is found itself, in front of what was found before.
-/

namespace TypeClosure.FileTree

variable {t : FileTree} {place : List String} {text : Option String} {path : String}

/-! ### One file more -/

theorem isFile_iff :
    t.isFile path = true ↔ ∃ place, t.locate path = .ok place ∧ t.FileAt place := by
  rw [← isSome_placeOfFile?, Option.isSome_iff_exists]
  exact exists_congr fun _ => placeOfFile?_eq_some

theorem isFile_of_isDirectory (directory : t.isDirectory path = true) : t.isFile path = false := by
  have found : t.find? path = some .directory := beq_iff_eq.mp directory
  rw [isFile, found]

theorem entryAt?_of_kept {entry : Entry} {other : List String}
    (found : t.entryAt? other = some entry) :
    (t.withFile place text).entryAt? other = some entry := by
  rw [entryAt?_withFile, found, Option.some_or]

/-- A file that is added makes a file of those paths only that lead to it. -/
theorem isFile_withFile (fresh : t.entryAt? place = none) :
    (t.withFile place text).isFile path = true ↔
      t.isFile path = true ∨ (t.withFile place text).locate path = .ok place := by
  have origins : (t.withFile place text).origin path = t.origin path := rfl
  rw [isFile_iff, isFile_iff]
  constructor
  · rintro ⟨other, located, file⟩
    by_cases arrived : other = place
    · exact .inr (arrived ▸ located)
    · have nonempty := ne_empty_of_locate located
      rw [locate_eq_walk nonempty, origins] at located
      have walked := (walk_withFile fresh located).resolve_left arrived
      obtain ⟨content, found⟩ := file
      rw [entryAt?_withFile, if_neg arrived, Option.or_none] at found
      exact .inl ⟨other, (locate_eq_walk nonempty).trans walked, content, found⟩
  · rintro (⟨other, located, content, found⟩ | located)
    · have nonempty := ne_empty_of_locate located
      rw [locate_eq_walk nonempty] at located
      refine ⟨other, ?_, content, entryAt?_of_kept found⟩
      rw [locate_eq_walk nonempty, origins]
      exact walk_of_kept (fun _ _ => entryAt?_of_kept) located
    · refine ⟨place, located, text, ?_⟩
      rw [entryAt?_withFile, fresh, Option.none_or, if_pos rfl]

/-! ### The search -/

variable {importing specifier : String} {extensions : List String}

theorem resolveModule_eq_some :
    t.resolveModule importing specifier extensions = some path ↔
      ∃ before after, moduleCandidates importing specifier extensions = before ++ path :: after ∧
        t.isFile path = true ∧ ∀ c ∈ before, t.isFile c = false := by
  rw [resolveModule, List.find?_eq_some_iff_append]
  constructor
  · rintro ⟨isFile, before, after, eq, others⟩
    exact ⟨before, after, eq, isFile, fun c member => by simpa using others c member⟩
  · rintro ⟨before, after, eq, isFile, others⟩
    exact ⟨isFile, before, after, eq, fun c member => by simpa using others c member⟩

theorem resolveModule_eq_none :
    t.resolveModule importing specifier extensions = none ↔
      ∀ c ∈ moduleCandidates importing specifier extensions, t.isFile c = false := by
  rw [resolveModule, List.find?_eq_none]
  exact forall₂_congr fun _ _ => Bool.eq_false_iff.symm

/-- What was found without the new file is found in front of it, or not at all. -/
theorem resolveModule_withFile (fresh : t.entryAt? place = none) :
    (t.withFile place text).resolveModule importing specifier extensions =
        t.resolveModule importing specifier extensions ∨
      ∃ before c after, moduleCandidates importing specifier extensions = before ++ c :: after ∧
        (t.withFile place text).resolveModule importing specifier extensions = some c ∧
        (t.withFile place text).locate c = .ok place ∧
        ∀ former ∈ t.resolveModule importing specifier extensions,
          former ∉ before ++ [c] ∧ former ∈ after := by
  have kept {c : String} (missing : (t.withFile place text).isFile c = false) :
      t.isFile c = false := by
    refine Bool.eq_false_iff.mpr fun isFile => ?_
    rw [(isFile_withFile fresh).mpr (.inl isFile)] at missing
    contradiction
  cases found : (t.withFile place text).resolveModule importing specifier extensions with
  | none =>
      refine .inl (Eq.symm ?_)
      rw [resolveModule_eq_none] at found ⊢
      exact fun c member => kept (found c member)
  | some c =>
      obtain ⟨before, after, eq, isFile, others⟩ := resolveModule_eq_some.mp found
      cases old : t.isFile c with
      | true =>
          refine .inl (Eq.symm (resolveModule_eq_some.mpr ⟨before, after, eq, old, ?_⟩))
          exact fun other member => kept (others other member)
      | false =>
          refine .inr ⟨before, c, after, eq, rfl, ?_, fun former was => ?_⟩
          · exact ((isFile_withFile fresh).mp isFile).resolve_left (by simp [old])
          · have wasFile := isFile_of_resolveModule was
            have later : former ∉ before ++ [c] := by
              intro member
              rcases List.mem_append.mp member with earlier | same
              · rw [kept (others former earlier)] at wasFile
                contradiction
              · rw [List.mem_singleton.mp same, old] at wasFile
                contradiction
            refine ⟨later, ?_⟩
            have candidate : former ∈ moduleCandidates importing specifier extensions :=
              List.mem_of_find?_eq_some was
            rw [eq, List.append_cons] at candidate
            exact (List.mem_append.mp candidate).resolve_left later

/-- The file of a module is the first file among the specifier behind the directory of the importing
file, this text with each extension behind it, with each extension in the place of `.js`, and the
index of a directory of that name. A file that is added changes nothing, or it is found itself,
by a candidate that stands in front of what was found before. -/
theorem first_candidate_wins (t : FileTree) (importing specifier : String)
    (extensions : List String) :
    let base := Path.join ((Path.parent? importing).getD ".") specifier
    let candidates := moduleCandidates importing specifier extensions
    let index := extensions.map fun e => Path.join base ("index" ++ e)
    (∀ stem, base = stem ++ ".js" →
      candidates = base :: extensions.map (base ++ ·) ++ extensions.map (stem ++ ·) ++ index) ∧
    ((∀ stem, base ≠ stem ++ ".js") → candidates = base :: extensions.map (base ++ ·) ++ index) ∧
    (∀ path, t.resolveModule importing specifier extensions = some path ↔
      ∃ before after, candidates = before ++ path :: after ∧ t.isFile path = true ∧
        ∀ c ∈ before, t.isFile c = false) ∧
    (t.resolveModule importing specifier extensions = none ↔
      ∀ c ∈ candidates, t.isFile c = false) ∧
    (∀ path, t.isDirectory path = true → t.isFile path = false) ∧
    ∀ place text, t.entryAt? place = none →
      (t.withFile place text).resolveModule importing specifier extensions =
          t.resolveModule importing specifier extensions ∨
        ∃ before c after, candidates = before ++ c :: after ∧
          (t.withFile place text).resolveModule importing specifier extensions = some c ∧
          (t.withFile place text).locate c = .ok place ∧
          ∀ former ∈ t.resolveModule importing specifier extensions,
            former ∉ before ++ [c] ∧ former ∈ after := by
  refine ⟨fun stem eq => ?_, fun other => ?_, fun _ => resolveModule_eq_some, resolveModule_eq_none,
    fun _ => isFile_of_isDirectory, fun _ _ => resolveModule_withFile⟩
  · simp only [moduleCandidates, withoutEnding?_eq_some.mpr eq]
  · have uncut : withoutEnding? ".js" (Path.join ((Path.parent? importing).getD ".") specifier) =
        none :=
      Option.eq_none_iff_forall_not_mem.mpr fun stem cut =>
        other stem (withoutEnding?_eq_some.mp cut)
    simp only [moduleCandidates, uncut, List.append_nil]

/-- A directory with a module that is asked for by its compiled name. -/
def compiled : FileTree where
  current := ["w"]
  entries := [(["w"], .directory), (["w", "src"], .directory), (["w", "src", "m.ts"], .directory),
    (["w", "src", "m.tsx"], .file (some ""))]

/-- A directory that has the name of a candidate does not count; a new file with an extension that
comes earlier does. -/
theorem first_candidate_compiled :
    compiled.resolveModule "src/a.ts" "./m.js" [".mts", ".ts", ".tsx"] = some "src/./m.tsx" ∧
      ∃ c, (compiled.withFile ["w", "src", "m.mts"] none).resolveModule "src/a.ts" "./m.js"
          [".mts", ".ts", ".tsx"] = some c ∧
        (compiled.withFile ["w", "src", "m.mts"] none).locate c = .ok ["w", "src", "m.mts"] := by
  obtain ⟨named, _, found, _, _, grown⟩ :=
    first_candidate_wins compiled "src/a.ts" "./m.js" [".mts", ".ts", ".tsx"]
  have candidates : moduleCandidates "src/a.ts" "./m.js" [".mts", ".ts", ".tsx"] =
      ["src/./m.js", "src/./m.js.mts", "src/./m.js.ts", "src/./m.js.tsx", "src/./m.mts",
        "src/./m.ts"] ++ "src/./m.tsx" :: ["src/./m.js/index.mts", "src/./m.js/index.ts",
        "src/./m.js/index.tsx"] :=
    (named "src/./m" (by decide +kernel)).trans (by decide +kernel)
  refine ⟨(found _).mpr ⟨_, _, candidates, by decide +kernel, by decide +kernel⟩, ?_⟩
  rcases grown ["w", "src", "m.mts"] none (by decide +kernel) with same | ⟨_, c, _, _, now, here, _⟩
  · exact absurd same (by decide +kernel)
  · exact ⟨c, now, here⟩

end TypeClosure.FileTree

import TypeClosure.Proofs.Demand

/-!
The bound on the depth of following is never reached. Each file that is followed is demanded a name
that has not been demanded of it before, and there are no more such pairs than the bound allows.
-/

namespace TypeClosure

theorem countP_lt_countP {α : Type} {p q : α → Bool} {l : List α}
    (weaker : ∀ a ∈ l, p a = true → q a = true) {a : α} (member : a ∈ l) (fails : p a = false)
    (holds : q a = true) : l.countP p < l.countP q := by
  obtain ⟨front, back, rfl⟩ := List.append_of_mem member
  have before := List.countP_mono_left fun b inFront => weaker b (List.mem_append_left _ inFront)
  have behind := List.countP_mono_left fun b inBack =>
    weaker b (List.mem_append_right _ (List.mem_cons_of_mem _ inBack))
  rw [List.countP_append, List.countP_append, List.countP_cons_of_neg (by simp [fails]),
    List.countP_cons_of_pos holds]
  omega

theorem originOf_mem_origins {r : Reexport} {name : String} (member : name ∈ r.names) :
    r.originOf name ∈ r.origins := by
  unfold Reexport.originOf
  cases found : r.bindings.find? (·.exported == name) with
  | none =>
      obtain ⟨b, inside, rfl⟩ := List.mem_map.mp member
      have := List.find?_eq_none.mp found b inside
      simp at this
  | some b => exact List.mem_map_of_mem (List.mem_of_find?_eq_some found)

namespace FileTree

variable {t : FileTree} {options : ClosureOptions}

/-- The pairs of files and names that may be demanded while names are followed. -/
def demandable (t : FileTree) : List (String × String) :=
  t.entries.flatMap fun (place, _) => t.forwardedOrigins.map (pathOf place, ·)

theorem length_demandable (t : FileTree) : t.demandable.length = t.followBound := by
  rw [demandable, followBound]
  induction t.entries with
  | nil => simp
  | cons entry rest ih =>
      rw [List.flatMap_cons, List.length_append, ih, List.length_map, List.length_cons,
        Nat.succ_mul, Nat.add_comm]

theorem mem_demandable {file name : String} :
    (file, name) ∈ t.demandable ↔
      (∃ place entry, (place, entry) ∈ t.entries ∧ pathOf place = file) ∧
        name ∈ t.forwardedOrigins := by
  simp only [demandable, List.mem_flatMap, List.mem_map, Prod.mk.injEq, Prod.exists]
  constructor
  · rintro ⟨place, entry, member, _, forwarded, rfl, rfl⟩
    exact ⟨⟨place, entry, member, rfl⟩, forwarded⟩
  · rintro ⟨⟨place, entry, member, same⟩, forwarded⟩
    exact ⟨place, entry, member, name, forwarded, same, rfl⟩

/-- How many of these pairs have not been seen. -/
def unseenPairs (t : FileTree) (seen : List (String × String)) : Nat :=
  t.demandable.countP (!seen.contains ·)

theorem unseenPairs_le_of_subset {before after : List (String × String)}
    (grows : before ⊆ after) : t.unseenPairs after ≤ t.unseenPairs before := by
  apply List.countP_mono_left
  intro pair _ unseen
  simp only [Bool.not_eq_true', List.contains_eq_mem, decide_eq_false_iff_not] at unseen ⊢
  exact fun old => unseen (grows old)

theorem unseenPairs_lt_of_mem {before after : List (String × String)} (grows : before ⊆ after)
    {pair : String × String} (member : pair ∈ t.demandable) (fresh : pair ∉ before)
    (seen : pair ∈ after) : t.unseenPairs after < t.unseenPairs before := by
  refine countP_lt_countP ?_ member (by simpa using seen) (by simpa using fresh)
  intro other _ unseen
  simp only [Bool.not_eq_true', List.contains_eq_mem, decide_eq_false_iff_not] at unseen ⊢
  exact fun old => unseen (grows old)

/-! ### What is demanded is demandable -/

theorem mem_entries_of_fileAt {place : List String} {text : Option String}
    (found : t.entryAt? place = some (.file text)) : (place, .file text) ∈ t.entries := by
  refine mem_entries_of_entryAt? ?_ found
  rintro rfl
  cases found

theorem mem_forwardedOrigins (anchored : t.Anchored) {path name : String} {s : Source}
    (read : t.readSource path = .ok s) {r : Reexport} (member : r ∈ s.contents.reexports)
    (origin : name ∈ r.origins) : name ∈ t.forwardedOrigins := by
  obtain ⟨s', read', same⟩ := readSource_canonical anchored read
  obtain ⟨text, found, parsed⟩ := readSource_eq_ok.mp read'
  obtain ⟨place, located, entry⟩ := readText_eq_ok.mp found
  obtain ⟨place', file⟩ := placeOfFile?_of_readSource read
  have located' := (placeOfFile?_eq_some.mp file).1
  cases Except.ok.inj (located.symm.trans (locate_canonical anchored located'))
  rw [canonical_of_locate located'] at parsed
  refine List.mem_flatMap.mpr ⟨(place, text), ?_, ?_⟩
  · exact List.mem_filterMap.mpr ⟨_, mem_entries_of_fileAt entry, rfl⟩
  · simp only [parsed, same]
    exact List.mem_flatMap.mpr ⟨r, member, origin⟩

theorem mem_demandable_of_asks (anchored : t.Anchored) {path : String} {s : Source}
    (read : t.readSource path = .ok s) {externals : List Glob.Pattern} {roots : List String}
    {extensions : List String} {file name : String}
    (asks : Asks (t.targets extensions (s.closure externals roots) path) file name) :
    (file, name) ∈ t.demandable := by
  obtain ⟨r, needed, forwarded, named, resolved, rfl⟩ := asks_targets.mp asks
  obtain ⟨position, statement, stated, _, rfl⟩ := Source.mem_reexports_closure.mp needed
  rw [Reexport.names_restrictTo] at named
  have standing := (Source.mem_namesForwardedBy.mp named).2
  have first := (Source.standing_eq_forwarded.mp standing).2.2
  refine mem_demandable.mpr ⟨?_, ?_⟩
  · obtain ⟨path', found, rfl⟩ := moduleFile?_eq_some.mp resolved
    obtain ⟨place, file⟩ := placeOfFile?_of_resolveModule found
    obtain ⟨_, text, entry⟩ := placeOfFile?_eq_some.mp file
    exact ⟨place, _, mem_entries_of_fileAt entry, (canonical_of_placeOfFile? file).symm⟩
  · rw [originOf_restrictTo named]
    exact mem_forwardedOrigins anchored read (List.mem_of_getElem? stated)
      (originOf_mem_origins (Contents.mem_names_of_reexportOf? first stated))

/-! ### Failures -/

theorem followTargets_cons_eq_error
    {visit : String → List String → Visits → Except Failure ClosureTree × Visits}
    {target : FollowTarget} {rest : List FollowTarget} {v after : Visits} {f : Failure}
    (run : followTargets visit (target :: rest) v = (.error f, after)) :
    (v.unseen target.file target.roots = [] ∧
        followTargets visit rest (v.record (.skipping target.path)) = (.error f, after)) ∨
      (v.unseen target.file target.roots ≠ [] ∧
        ((∃ inner, visit target.path (v.unseen target.file target.roots) v =
            (.error inner, after) ∧ f = inner.during (.following target.modules)) ∨
          ∃ nested middle, visit target.path (v.unseen target.file target.roots) v =
            (.ok nested, middle) ∧ followTargets visit rest middle = (.error f, after))) := by
  simp only [followTargets] at run
  split at run
  · next none => exact .inl ⟨List.isEmpty_iff.mp none, run⟩
  · next some =>
      refine .inr ⟨fun none => some (List.isEmpty_iff.mpr none), ?_⟩
      split at run
      · next inner middle visited =>
          cases run
          exact .inl ⟨inner, visited, rfl⟩
      · next nested middle visited =>
          split at run
          · next inner last ran =>
              cases run
              exact .inr ⟨nested, middle, visited, ran⟩
          · cases run

theorem followUpTo_succ_eq_error {n : Nat} {path : String} {roots : List String}
    {v after : Visits} {f : Failure}
    (run : t.followUpTo options (n + 1) path roots v = (.error f, after)) :
    (t.readSource path = .error f ∧ after.steps = v.steps ++ [.parsing path]) ∨
      ∃ s, t.readSource path = .ok s ∧ options.followReexports = true ∧
      followTargets (t.followUpTo options n)
          (t.targets options.moduleExtensions (s.closure options.externals roots) path)
          (seenWith (v.record (.parsing path)) (t.canonical path) roots
            (s.closure options.externals roots)) = (.error f, after) := by
  simp only [followUpTo] at run
  split at run
  · next inner read =>
      cases run
      exact .inl ⟨read, rfl⟩
  · next s read =>
      split at run
      · next follows =>
          split at run
          · next inner last ran =>
              cases run
              exact .inr ⟨s, read, follows, ran⟩
          · cases run
      · cases run

theorem cause_readSource_ne_nesting {path : String} {f : Failure}
    (failed : t.readSource path = .error f) : f.cause ≠ .nesting := by
  unfold readSource at failed
  split at failed
  · cases failed
    exact Cause.noConfusion
  · split at failed
    · cases failed
    · cases failed
      exact Cause.noConfusion

theorem seen_followUpTo (follows : options.followReexports = true) {n : Nat} {path : String}
    {roots : List String} {v after : Visits} {tree : ClosureTree}
    (run : t.followUpTo options n path roots v = (.ok tree, after)) : v.seen ⊆ after.seen :=
  have anything : t.Propagates options fun _ _ => True :=
    fun _ _ _ _ _ _ _ _ _ _ _ => trivial
  (outcome_followUpTo follows anything run fun _ _ _ _ => trivial).1.grows

/-- A visit of a file for new names never goes too deep, if no more pairs are unseen than there
are levels left. -/
def StaysWithin (t : FileTree) (levels : Nat)
    (visit : String → List String → Visits → Except Failure ClosureTree × Visits) : Prop :=
  ∀ path roots v f after, roots ≠ [] →
    (∀ name ∈ roots, (t.canonical path, name) ∈ t.demandable ∧
      (t.canonical path, name) ∉ v.seen) →
    t.unseenPairs v.seen ≤ levels → visit path roots v = (.error f, after) → f.cause ≠ .nesting

theorem cause_followTargets_ne_nesting {levels : Nat}
    {visit : String → List String → Visits → Except Failure ClosureTree × Visits}
    (stays : t.StaysWithin levels visit)
    (grows : ∀ path roots v tree after, visit path roots v = (.ok tree, after) →
      v.seen ⊆ after.seen)
    {targets : List FollowTarget}
    (files : ∀ target ∈ targets, target.file = t.canonical target.path)
    (asked : ∀ file name, Asks targets file name → (file, name) ∈ t.demandable)
    {v after : Visits} {f : Failure} (enough : t.unseenPairs v.seen ≤ levels)
    (run : followTargets visit targets v = (.error f, after)) : f.cause ≠ .nesting := by
  induction targets generalizing v with
  | nil => cases run
  | cons target rest ih =>
      rw [List.forall_mem_cons] at files
      have later := fun file name asks => asked file name (asks_cons.mpr (.inr asks))
      rcases followTargets_cons_eq_error run with ⟨_, skipped⟩ | ⟨some, ⟨inner, visited, rfl⟩ |
        ⟨nested, middle, visited, ran⟩⟩
      · have same : t.unseenPairs (v.record (.skipping target.path)).seen ≤ levels := enough
        exact ih files.2 later same skipped
      · refine stays _ _ _ inner after some ?_ enough visited
        intro name member
        obtain ⟨asks, fresh⟩ := mem_unseen.mp member
        rw [← files.1]
        exact ⟨asked _ _ (asks_cons.mpr (.inl ⟨rfl, asks⟩)), fresh⟩
      · have fewer := unseenPairs_le_of_subset (t := t) (grows _ _ _ _ _ visited)
        exact ih files.2 later (Nat.le_trans fewer enough) ran

theorem subset_seenWith {v : Visits} {file : String} {roots : List String} {s : Source}
    {externals : List Glob.Pattern} :
    v.seen ⊆ (seenWith v file roots (s.closure externals roots)).seen :=
  fun (_, _) member => mem_seenWith.mpr (.inr member)

theorem staysWithin_followUpTo (anchored : t.Anchored) (levels : Nat) :
    t.StaysWithin levels (t.followUpTo options levels) := by
  induction levels with
  | zero =>
      intro path roots v f after nonempty fresh enough _
      obtain ⟨name, rest, rfl⟩ := List.exists_cons_of_ne_nil nonempty
      obtain ⟨member, unseen⟩ := fresh name List.mem_cons_self
      have less := unseenPairs_lt_of_mem (t := t) (List.subset_cons_self (t.canonical path, name) _)
        member unseen List.mem_cons_self
      omega
  | succ n ih =>
      intro path roots v f after nonempty fresh enough run
      rcases followUpTo_succ_eq_error run with ⟨failed, _⟩ | ⟨s, read, follows, ran⟩
      · exact cause_readSource_ne_nesting failed
      · obtain ⟨name, rest, rfl⟩ := List.exists_cons_of_ne_nil nonempty
        obtain ⟨member, unseen⟩ := fresh name List.mem_cons_self
        -- The first root is new, so one pair less is unseen on the next level.
        have root : name ∈ (s.closure options.externals (name :: rest)).roots :=
          (Source.mem_rootsFor_of_ne_nil (c := s.contents) nonempty).mpr List.mem_cons_self
        have less : t.unseenPairs (seenWith (v.record (.parsing path)) (t.canonical path)
            (name :: rest) (s.closure options.externals (name :: rest))).seen <
              t.unseenPairs v.seen :=
          unseenPairs_lt_of_mem subset_seenWith member unseen
            (mem_seenWith.mpr (.inl ⟨rfl, .inl root⟩))
        exact cause_followTargets_ne_nesting ih
          (fun _ _ _ _ _ visited => seen_followUpTo follows visited)
          (fun _ member => file_of_mem_targets member)
          (fun _ _ asks => mem_demandable_of_asks anchored read asks) (by omega) ran

/-- Following names never fails for going too deep. -/
theorem cause_closure_ne_nesting (anchored : t.Anchored) {path : String} {roots : List String}
    {f : Failure} (failed : (t.closure options path roots).1 = .error f) : f.cause ≠ .nesting := by
  simp only [closure] at failed
  rcases followUpTo_succ_eq_error (Prod.ext failed rfl) with ⟨unread, _⟩ | ⟨s, read, follows, ran⟩
  · exact cause_readSource_ne_nesting unread
  · rw [if_pos follows] at ran
    refine cause_followTargets_ne_nesting (staysWithin_followUpTo anchored t.followBound)
      (fun _ _ _ _ _ visited => seen_followUpTo follows visited)
      (fun _ member => file_of_mem_targets member)
      (fun _ _ asks => mem_demandable_of_asks anchored read asks) ?_ ran
    rw [← length_demandable]
    exact List.countP_le_length

end FileTree

end TypeClosure

import TypeClosure.Proofs.CrossFile
import TypeClosure.Proofs.Termination

/-!
When following fails, and what the failure says. A file that cannot be read stops everything as soon
as a needed name leads to it, and the failure names the statements on the way there.
-/

namespace TypeClosure.FileTree

variable {t : FileTree} {options : ClosureOptions} {path : String} {requested : List String}

/-- The files that needed names lead to, with the names that are demanded of them there. Only a file
that can be read leads further. -/
inductive Reaches (t : FileTree) (options : ClosureOptions) (start : String)
    (requested : List String) : String → List String → Prop
  | start : Reaches t options start requested start requested
  | hop {importing next : String} {names : List String} {s : Source} {r : Reexport} :
      Reaches t options start requested importing names → t.readSource importing = .ok s →
      r ∈ (s.closure options.externals names).reexports →
      t.resolveModule importing r.module options.moduleExtensions = some next →
      Reaches t options start requested next (r.names.map r.originOf)

/-- How one visit comes to another, with what the statements followed on the way call the modules,
the outermost first. Whatever comes in front of a target has been followed without failure. -/
inductive Descends (t : FileTree) (options : ClosureOptions) :
    Visit → List (List String) → Visit → Prop
  | here {call : Visit} : Descends t options call [] call
  | hop {outer last : Visit} {s : Source} {front back : List FollowTarget} {target : FollowTarget}
      {n : Nat} {trees : List ClosureTree} {middle : Visits} {hops : List (List String)} :
      options.followReexports = true → t.readSource outer.path = .ok s →
      t.targets options.moduleExtensions (s.closure options.externals outer.roots) outer.path =
        front ++ target :: back →
      followTargets (t.followUpTo options n) front (Visit.seen t options outer s) =
        (.ok trees, middle) →
      middle.unseen target.file target.roots ≠ [] →
      Descends t options ⟨target.path, middle.unseen target.file target.roots, middle⟩ hops last →
      Descends t options outer (t.modulesOf options.moduleExtensions
        (s.closure options.externals outer.roots) outer.path target.file :: hops) last

/-! ### Spellings -/

theorem readSource_of_canonical (anchored : t.Anchored) {s : Source}
    (read : t.readSource (t.canonical path) = .ok s) : ∃ s', t.readSource path = .ok s' := by
  cases located : t.locate path with
  | error fault =>
      rw [canonical, located] at read
      exact ⟨s, read⟩
  | ok place =>
      obtain ⟨s', read', _⟩ :=
        readSource_congr anchored (locate_canonical anchored located) located read
      exact ⟨s', read'⟩

theorem readable_of_same (anchored : t.Anchored) {other : String} {s : Source}
    (same : t.canonical path = t.canonical other) (read : t.readSource path = .ok s) :
    ∃ s', t.readSource other = .ok s' := by
  obtain ⟨s', read', _⟩ := readSource_canonical anchored read
  rw [same] at read'
  exact readSource_of_canonical anchored read'

/-! ### Needed files -/

section Needed

variable (anchored : t.Anchored)
  (plain : ∀ e ∈ options.moduleExtensions, Path.isAbsolute e = false)

include anchored plain

theorem exists_reaches_of_needed {file name : String}
    (needed : t.Needed options (t.canonical path) requested file name) :
    ∃ spelled names, t.Reaches options path requested spelled names ∧
      t.canonical spelled = file ∧ ∀ s, t.readSource spelled = .ok s →
        s.Reachable options.externals (s.contents.rootsFor names) name := by
  induction needed with
  | root root =>
      refine ⟨path, requested, .start, rfl, ?_⟩
      intro s read
      exact .root ((requested_iff_mem_rootsFor anchored read).mp root)
  | reference _ allowed read' refers ih =>
      obtain ⟨spelled, names, reaches, rfl, reachable⟩ := ih
      refine ⟨spelled, names, reaches, rfl, ?_⟩
      intro s read
      have same := contents_of_readSource_canonical anchored read read'
      exact .reference (reachable s read) allowed ((Source.refers_congr same).mp refers)
  | forwarded _ forwards ih =>
      obtain ⟨spelled, names, reaches, rfl, reachable⟩ := ih
      -- The file forwards a name, so it can be read, under this spelling too.
      have ⟨_, ⟨_, read', _⟩, _⟩ := forwards
      obtain ⟨s, read⟩ := readSource_of_canonical anchored read'
      obtain ⟨r, member, named, found, rfl⟩ :=
        mem_reexports_of_forwards anchored plain read (reachable s read) forwards
      obtain ⟨next, resolved, rfl⟩ := moduleFile?_eq_some.mp found
      refine ⟨next, _, reaches.hop read member resolved, rfl, ?_⟩
      intro s' _
      have origin := List.mem_map_of_mem (f := r.originOf) named
      exact .root ((Source.mem_rootsFor_of_ne_nil (List.ne_nil_of_mem origin)).mpr origin)

theorem readable_of_reaches (follows : options.followReexports = true) {tree : ClosureTree}
    (result : (t.closure options path requested).1 = .ok tree) {file : String}
    {names : List String} (reaches : t.Reaches options path requested file names) :
    ∃ s, t.readSource file = .ok s ∧ ∀ name ∈ s.contents.rootsFor names,
      t.Demanded options (t.canonical path) requested (t.canonical file) name := by
  induction reaches with
  | start =>
      simp only [closure, follows, if_true] at result
      obtain ⟨_, s, _, _, read, _⟩ := followUpTo_eq_ok follows (Prod.ext result rfl)
      refine ⟨s, read, ?_⟩
      intro name member
      exact .inl ⟨rfl, (requested_iff_mem_rootsFor anchored read).mpr member⟩
  | @hop importing next names s r _ read member resolved ih =>
      obtain ⟨s', read', demanded⟩ := ih
      cases Except.ok.inj (read.symm.trans read')
      have found := moduleFile?_eq_some.mpr ⟨next, resolved, rfl⟩
      have origins : ∀ origin ∈ r.names.map r.originOf,
          t.Demanded options (t.canonical path) requested (t.canonical next) origin := by
        intro origin member'
        obtain ⟨name, named, rfl⟩ := List.mem_map.mp member'
        exact propagates_demanded anchored plain importing s names read demanded r member name
          named _ found
      have some : r.names.map r.originOf ≠ [] := by
        obtain ⟨_, _, _, some, rfl⟩ := Source.mem_reexports_closure.mp member
        simpa using some
      -- What is demanded of a file has a node of that file, which was built from its source.
      obtain ⟨origin, member'⟩ := List.exists_mem_of_ne_nil _ some
      obtain ⟨_, _, covers, _⟩ := exists_listed_of_demanded anchored follows plain result
        (origins origin member')
      obtain ⟨_, _, _, _, there, _⟩ := covers.source anchored
      obtain ⟨s', read'⟩ := readSource_of_canonical anchored there
      refine ⟨s', read', ?_⟩
      intro name root
      exact origins name ((Source.mem_rootsFor_of_ne_nil some).mp root)

end Needed

/-! ### Runs -/

/-- The files parsed in some steps can all be read. -/
def AllRead (t : FileTree) (steps : List FollowStep) : Prop :=
  ∀ path, .parsing path ∈ steps → ∃ s, t.readSource path = .ok s

theorem AllRead.skipping {v : Visits} (read : t.AllRead v.steps) (path : String) :
    t.AllRead (v.record (.skipping path)).steps := by
  intro other parsed
  simp only [Visits.record, List.mem_append, List.mem_singleton, reduceCtorEq, or_false] at parsed
  exact read other parsed

theorem AllRead.parsing {v : Visits} (before : t.AllRead v.steps) {s : Source}
    (read : t.readSource path = .ok s) : t.AllRead (v.record (.parsing path)).steps := by
  intro other parsed
  simp only [Visits.record, List.mem_append, List.mem_singleton, FollowStep.parsing.injEq]
    at parsed
  cases parsed with
  | inl old => exact before other old
  | inr new => exact ⟨s, new ▸ read⟩

theorem allRead_followTargets
    {visit : String → List String → Visits → Except Failure ClosureTree × Visits}
    (visiting : ∀ path roots v tree after, visit path roots v = (.ok tree, after) →
      t.AllRead v.steps → t.AllRead after.steps)
    {targets : List FollowTarget} {v after : Visits} {trees : List ClosureTree}
    (run : followTargets visit targets v = (.ok trees, after)) (before : t.AllRead v.steps) :
    t.AllRead after.steps := by
  induction targets generalizing v trees with
  | nil =>
      cases run
      exact before
  | cons target rest ih =>
      cases followTargets_cons_eq_ok run with
      | inl skipped => exact ih skipped.2 (before.skipping target.path)
      | inr followed =>
          obtain ⟨_, nested, others, middle, visited, ran, rfl⟩ := followed
          exact ih ran (visiting _ _ _ _ _ visited before)

theorem allRead_followUpTo (follows : options.followReexports = true) {n : Nat}
    {roots : List String} {v after : Visits} {tree : ClosureTree}
    (run : t.followUpTo options n path roots v = (.ok tree, after))
    (before : t.AllRead v.steps) : t.AllRead after.steps := by
  induction n generalizing path roots v after tree with
  | zero => cases run
  | succ n ih =>
      obtain ⟨m, s, followed, eq, read, ran, rfl⟩ := followUpTo_eq_ok follows run
      cases eq
      exact allRead_followTargets (fun _ _ _ _ _ visited => ih visited) ran (before.parsing read)

theorem exists_target_of_followTargets_eq_error
    {visit : String → List String → Visits → Except Failure ClosureTree × Visits}
    {targets : List FollowTarget} {v after : Visits} {f : Failure}
    (run : followTargets visit targets v = (.error f, after)) :
    ∃ front target back trees middle inner, targets = front ++ target :: back ∧
      followTargets visit front v = (.ok trees, middle) ∧
      middle.unseen target.file target.roots ≠ [] ∧
      visit target.path (middle.unseen target.file target.roots) middle = (.error inner, after) ∧
      f = inner.during (.following target.modules) := by
  induction targets generalizing v with
  | nil => cases run
  | cons first rest ih =>
      rcases followTargets_cons_eq_error run with ⟨none, skipped⟩ | ⟨some, ⟨inner, visited, rfl⟩ |
        ⟨nested, middle, visited, ran⟩⟩
      · obtain ⟨front, target, back, trees, middle, inner, rfl, before, fails⟩ := ih skipped
        refine ⟨first :: front, target, back, trees, middle, inner, rfl, ?_, fails⟩
        simpa [followTargets, none] using before
      · exact ⟨[], first, rest, [], v, inner, rfl, rfl, some, visited, rfl⟩
      · obtain ⟨front, target, back, trees, last, inner, rfl, before, fails⟩ := ih ran
        refine ⟨first :: front, target, back, nested :: trees, last, inner, rfl, ?_, fails⟩
        simp only [followTargets_cons_of_ne_nil some, visited, before]

/-- A visit that fails comes to a file that cannot be read, and stops there. -/
theorem exists_descends_of_error {n : Nat} {call : Visit} {f : Failure} {after : Visits}
    (run : t.followUpTo options n call.path call.roots call.before = (.error f, after))
    (bounded : f.cause ≠ .nesting) (before : t.AllRead call.before.steps) :
    ∃ hops last own, t.Descends options call hops last ∧ t.readSource last.path = .error own ∧
      f = ⟨hops.map .following ++ own.activities, own.cause⟩ ∧
      ∃ earlier, after.steps = earlier ++ [.parsing last.path] ∧ t.AllRead earlier := by
  -- One hop for each level of the bound: the failing target is visited with one level less.
  induction n generalizing call f with
  | zero =>
      cases run
      contradiction
  | succ n ih =>
      rcases followUpTo_succ_eq_error run with ⟨unread, steps⟩ | ⟨s, read, follows, ran⟩
      · exact ⟨[], call, f, .here, unread, rfl, _, steps, before⟩
      · obtain ⟨front, target, back, trees, middle, inner, eq, passed, some, visited, rfl⟩ :=
          exists_target_of_followTargets_eq_error ran
        have passedRead := allRead_followTargets (fun _ _ _ _ _ visited =>
          allRead_followUpTo follows visited) passed (before.parsing read)
        obtain ⟨hops, last, own, descends, unread, failure, first⟩ :=
          @ih ⟨target.path, _, middle⟩ inner visited bounded passedRead
        have member : target ∈ t.targets options.moduleExtensions
            (s.closure options.externals call.roots) call.path := by
          rw [eq]
          simp
        refine ⟨_, last, own, .hop follows read eq passed some descends, unread, ?_, first⟩
        rw [failure, modules_of_mem_targets member]
        rfl

theorem demanded_of_descends {demanded : String → String → Prop}
    (propagates : t.Propagates options demanded) {call last : Visit} {hops : List (List String)}
    (descends : t.Descends options call hops last)
    (roots : ∀ s, t.readSource call.path = .ok s → ∀ name ∈ s.contents.rootsFor call.roots,
      demanded (t.canonical call.path) name) :
    last = call ∨ ∃ name, demanded (t.canonical last.path) name := by
  induction descends with
  | here => exact .inl rfl
  | @hop outer last s front back target n trees middle hops _ read eq _ some _ ih =>
      have member : target ∈ t.targets options.moduleExtensions
          (s.closure options.externals outer.roots) outer.path := by
        rw [eq]
        simp
      have asked : ∀ name ∈ middle.unseen target.file target.roots,
          demanded (t.canonical target.path) name := by
        intro name new
        have asks := asks_targets.mp ⟨target, member, rfl, (mem_unseen.mp new).1⟩
        obtain ⟨r, needed, forwarded, named, found, rfl⟩ := asks
        rw [← file_of_mem_targets member]
        exact propagates outer.path s outer.roots read (roots s read) r needed forwarded named _
          found
      have later := ih fun _ _ name root =>
        asked name ((Source.mem_rootsFor_of_ne_nil some).mp root)
      cases later with
      | inl same =>
          obtain ⟨name, new⟩ := List.exists_mem_of_ne_nil _ some
          rw [same]
          exact .inr ⟨name, asked name new⟩
      | inr demands => exact .inr demands

theorem exists_reaches_of_descends (anchored : t.Anchored)
    (plain : ∀ e ∈ options.moduleExtensions, Path.isAbsolute e = false) {last : Visit}
    {hops : List (List String)} (descends : t.Descends options ⟨path, requested, {}⟩ hops last) :
    ∃ file names, t.Reaches options path requested file names ∧
      t.canonical file = t.canonical last.path := by
  have propagates := @propagates_demanded t options (t.canonical path) requested anchored plain
  cases demanded_of_descends propagates descends fun s read name root =>
    .inl ⟨rfl, (requested_iff_mem_rootsFor anchored read).mpr root⟩ with
  | inl same =>
      rw [same]
      exact ⟨path, requested, .start, rfl⟩
  | inr demands =>
      obtain ⟨name, demanded⟩ := demands
      obtain ⟨file, names, reaches, same, _⟩ :=
        exists_reaches_of_needed anchored plain demanded.needed
      exact ⟨file, names, reaches, same⟩

/-! ### Messages -/

theorem intercalate_append {separator : String} {texts others : List String} (some : others ≠ []) :
    String.intercalate separator (texts ++ others) =
      String.intercalate separator (texts ++ [String.intercalate separator others]) := by
  induction texts with
  | nil => simp
  | cons text rest ih =>
      rw [List.cons_append, List.cons_append, String.intercalate_cons_of_ne_nil (by simp [some]),
        String.intercalate_cons_of_ne_nil (by simp), ih]

theorem readSource_eq_error {f : Failure} (failed : t.readSource path = .error f) :
    (∃ fault, t.readText path = .error fault ∧ f = ⟨[.readingSource path], .file fault⟩) ∨
      ∃ text, t.readText path = .ok text ∧ Source.read? path text = none ∧
        f = ⟨[], .parse path⟩ := by
  unfold readSource at failed
  cases read : t.readText path with
  | error fault =>
      rw [read] at failed
      cases failed
      exact .inl ⟨fault, rfl, rfl⟩
  | ok text =>
      simp only [read] at failed
      cases parsed : Source.read? path text with
      | some source => simp [parsed] at failed
      | none =>
          simp only [parsed] at failed
          cases failed
          exact .inr ⟨text, rfl, parsed, rfl⟩

theorem message_behind (hops : List (List String)) {own : Failure}
    (failed : t.readSource path = .error own) :
    Failure.message ⟨hops.map .following ++ own.activities, own.cause⟩ =
      String.intercalate ": " (hops.map (fun modules =>
        "Failed to follow re-export \"" ++ String.intercalate "\", \"" modules ++ "\"") ++
          [own.message]) := by
  have some : own.activities.map Activity.message ++ own.cause.message?.toList ≠ [] := by
    cases readSource_eq_error failed with
    | inl unread =>
        obtain ⟨fault, _, rfl⟩ := unread
        simp
    | inr unparsed =>
        obtain ⟨text, _, _, rfl⟩ := unparsed
        simp [Cause.message?]
  rw [Failure.message, Failure.message, List.map_append, List.map_map, List.append_assoc,
    intercalate_append some]
  rfl

/-! ### Failures -/

/-- A run that fails: it comes to a file that cannot be read, by hops whose targets are followed in
order, and the failure names the modules of these hops, the outermost first. -/
structure FailsAt (t : FileTree) (options : ClosureOptions) (path : String)
    (requested : List String) (f : Failure) (hops : List (List String)) (last : Visit)
    (own : Failure) : Prop where
  descends : t.Descends options ⟨path, requested, {}⟩ hops last
  unread : t.readSource last.path = .error own
  needed : ∃ file names, t.Reaches options path requested file names ∧
    t.canonical file = t.canonical last.path
  /-- It is the first file on the way that cannot be read, and nothing is done after it. -/
  first : ∃ earlier, (t.closure options path requested).2 = earlier ++ [.parsing last.path] ∧
    t.AllRead earlier
  failure : f = ⟨hops.map .following ++ own.activities, own.cause⟩
  message : f.message = String.intercalate ": " (hops.map (fun modules =>
    "Failed to follow re-export \"" ++ String.intercalate "\", \"" modules ++ "\"") ++
      [own.message])

theorem exists_failsAt (anchored : t.Anchored)
    (plain : ∀ e ∈ options.moduleExtensions, Path.isAbsolute e = false) {f : Failure}
    (failed : (t.closure options path requested).1 = .error f) :
    ∃ hops last own, t.FailsAt options path requested f hops last own := by
  have bounded := cause_closure_ne_nesting anchored failed
  have run : t.followUpTo options ((if options.followReexports then t.followBound else 0) + 1) path
      requested {} = (.error f, _) :=
    Prod.ext failed rfl
  obtain ⟨hops, last, own, descends, unread, failure, first⟩ :=
    @exists_descends_of_error t options _ ⟨path, requested, {}⟩ f _ run bounded
      fun _ parsed => absurd parsed List.not_mem_nil
  refine ⟨hops, last, own, descends, unread,
    exists_reaches_of_descends anchored plain descends, first, failure, ?_⟩
  rw [failure]
  exact message_behind hops unread

/-- Following fails exactly when the first file cannot be read, or a file that needed names lead to
across statements; where else files cannot be read does not matter. The failure is that of the first
such file on the way, behind what the statements that lead there call their modules. Files come in
the order in which the statements of a closure first lead to them. -/
theorem closure_fails_exactly (anchored : t.Anchored)
    (plain : ∀ e ∈ options.moduleExtensions, Path.isAbsolute e = false) (path : String)
    (requested : List String) :
    ((∃ f, (t.closure options path requested).1 = .error f) ↔
      (∃ own, t.readSource path = .error own) ∨ options.followReexports = true ∧
        ∃ file names, t.Reaches options path requested file names ∧
          ∃ own, t.readSource file = .error own) ∧
    (∀ f, (t.closure options path requested).1 = .error f →
      ∃ hops last own, t.FailsAt options path requested f hops last own) ∧
    ∀ c importing, (t.targets options.moduleExtensions c importing).map FollowTarget.file =
      distinct (c.reexports.filterMap fun r =>
        t.moduleFile? options.moduleExtensions importing r.module) := by
  refine ⟨?_, fun f failed => exists_failsAt anchored plain failed, fun c importing =>
    map_file_targets⟩
  constructor
  · intro fails
    obtain ⟨f, failed⟩ := fails
    obtain ⟨hops, last, own, run⟩ := exists_failsAt anchored plain failed
    cases run.descends with
    | here => exact .inl ⟨own, run.unread⟩
    | hop follows =>
        obtain ⟨file, names, reaches, same⟩ := run.needed
        refine .inr ⟨follows, file, names, reaches, ?_⟩
        cases read : t.readSource file with
        | error other => exact ⟨other, rfl⟩
        | ok s =>
            obtain ⟨s', read'⟩ := readable_of_same anchored same read
            rw [run.unread] at read'
            contradiction
  · intro unread
    cases unread with
    | inl first =>
        obtain ⟨own, failed⟩ := first
        simp only [closure, followUpTo, failed]
        exact ⟨own, rfl⟩
    | inr later =>
        obtain ⟨follows, file, names, reaches, own, failed⟩ := later
        cases result : (t.closure options path requested).1 with
        | error f => exact ⟨f, rfl⟩
        | ok tree =>
            obtain ⟨s, read, _⟩ := readable_of_reaches anchored plain follows result reaches
            rw [failed] at read
            contradiction

instance {ε α : Type} [DecidableEq ε] (x : Except ε α) (e : ε) : Decidable (x = .error e) :=
  match x with
  | .error other => decidable_of_iff (other = e) (by simp)
  | .ok _ => isFalse (by simp)

/-- Two statements lead to one file, and from there to another one that cannot be read. A third
statement leads to a file that cannot be read either, but none of the names that it forwards is
asked for. -/
def broken : FileTree where
  current := ["w"]
  entries := [(["w"], .directory),
    (["w", "index.ts"], .file (some
      "export { Other } from './other';
        export { A } from './part'; export { B } from './part.ts';")),
    (["w", "part.ts"], .file (some "export { C as A, D as B } from './deep';")),
    (["w", "deep.ts"], .file (some "export interface \x7b")),
    (["w", "other.ts"], .file none)]

theorem closure_fails_exactly_broken :
    ∃ f hops last own,
      (broken.closure { followReexports := true } "index.ts" ["B", "A"]).1 = .error f ∧
      broken.FailsAt { followReexports := true } "index.ts" ["B", "A"] f hops last own ∧
      f.message = "Failed to follow re-export \"./part\", \"./part.ts\": " ++
        "Failed to follow re-export \"./deep\": Failed to parse ././deep.ts" := by
  have failed : (broken.closure { followReexports := true } "index.ts" ["B", "A"]).1 =
      .error ⟨[.following ["./part", "./part.ts"], .following ["./deep"]],
        .parse "././deep.ts"⟩ := by
    decide +kernel
  have ⟨_, fails, _⟩ := @closure_fails_exactly broken { followReexports := true }
    (by decide +kernel) (by decide) "index.ts" ["B", "A"]
  obtain ⟨hops, last, own, run⟩ := fails _ failed
  exact ⟨_, hops, last, own, failed, run, by decide +kernel⟩

theorem Reaches.next {importing : String} {names : List String}
    (reaches : t.Reaches options path requested importing names) (next : String)
    (origins : List String)
    (leads : ∃ s, t.readSource importing = .ok s ∧
      ∃ r ∈ (s.closure options.externals names).reexports,
        t.resolveModule importing r.module options.moduleExtensions = some next ∧
          r.names.map r.originOf = origins) :
    t.Reaches options path requested next origins := by
  obtain ⟨s, read, r, member, resolved, rfl⟩ := leads
  exact .hop reaches read member resolved

/-- A statement that leads to an unreadable file only where its own file is spelled with a
directory. -/
def slashedBroken : FileTree where
  current := ["w"]
  entries := [(["w"], .directory),
    (["w", "a.ts"], .file (some "export { N } from '.js'; export { X } from './b';")),
    (["w", "b.ts"], .file (some "export { N as X } from './a';")),
    (["w", "c.ts"], .file (some "export interface \x7b"))]

/-- With an extension that begins with a slash, a file that cannot be read may be missed. -/
theorem closure_succeeds_slashed :
    (∃ tree, (slashedBroken.closure { followReexports := true, moduleExtensions := [".ts", "/c.ts"] }
        "a.ts" ["N", "X"]).1 = .ok tree ∧ tree.hasMissingRoots = false) ∧
      ∃ file names, slashedBroken.Reaches
          { followReexports := true, moduleExtensions := [".ts", "/c.ts"] } "a.ts" ["N", "X"]
          file names ∧ ∃ own, slashedBroken.readSource file = .error own := by
  refine ⟨by decide +kernel, ".//c.ts", ["N"], ?_, ⟨[], .parse ".//c.ts"⟩, by decide +kernel⟩
  have first : slashedBroken.Reaches
      { followReexports := true, moduleExtensions := [".ts", "/c.ts"] } "a.ts" ["N", "X"]
      "a.ts" ["N", "X"] := .start
  have second := first.next "./b.ts" ["X"] (by decide +kernel)
  have third := second.next "././a.ts" ["N"] (by decide +kernel)
  exact third.next ".//c.ts" ["N"] (by decide +kernel)

end TypeClosure.FileTree

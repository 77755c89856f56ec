import TypeClosure.Proofs.CommandLines
import TypeClosure.Proofs.TaskFootprint

/-!
Flags that say how results are presented. They do not change what is found: with and without them a
command reads the same files and ends in the same way.
-/

namespace TypeClosure.Command

open FileTree

variable {t : FileTree} {f : Flag} {words words' : List String}

/-! ### Tasks -/

/-- Two outcomes that differ at most in how the result is written and in what is told beside it. -/
structure Outcome.Presents (f : Flag) (o o' : Outcome) : Prop where
  ending : o'.ending = o.ending
  tree : o'.tree = o.tree
  output : f ≠ .json → o'.output = o.output
  errors : f ≠ .verbose → o'.errors = o.errors

theorem runClosure_presented (t : FileTree) (a : ClosureArguments) (json verbose : Bool) :
    let o := runClosure t a
    let o' := runClosure t { a with json, verbose }
    o'.ending = o.ending ∧ o'.tree = o.tree ∧ (json = a.json → o'.output = o.output) ∧
      (verbose = a.verbose → o'.errors = o.errors) := by
  have asks (config : Config) :
      requestedClosure t { a with json, verbose } config = requestedClosure t a config := rfl
  simp only [runClosure, asks]
  split
  · exact ⟨rfl, rfl, fun _ => rfl, fun _ => rfl⟩
  · next loaded _ =>
      generalize requestedClosure t a loaded.config = run
      obtain ⟨result, steps⟩ := run
      cases result with
      | error f => exact ⟨rfl, rfl, fun _ => rfl, fun same => by rw [same]⟩
      | ok tree => exact ⟨rfl, rfl, fun same => by rw [same], fun same => by rw [same]⟩

theorem runNames_presented (t : FileTree) (a : NamesArguments) (json verbose : Bool) :
    let o := runNames t a
    let o' := runNames t { a with json, verbose }
    o'.ending = o.ending ∧ o'.tree = o.tree ∧ (json = a.json → o'.output = o.output) ∧
      (verbose = a.verbose → o'.errors = o.errors) := by
  simp only [runNames]
  split
  · exact ⟨rfl, rfl, fun _ => rfl, fun _ => rfl⟩
  · exact ⟨rfl, rfl, fun _ => rfl, fun _ => rfl⟩
  · exact ⟨rfl, rfl, fun same => by rw [same], fun same => by rw [same]⟩

/-- With `--verbose` a task writes the same result, with `--json` it tells the same beside it. -/
theorem presents_give (presents : f = .verbose ∨ f = .json) (t : FileTree) (task : Task) :
    (task.run t).Presents f ((task.give f).run t) := by
  have kept {other : Flag} (different : f ≠ other) (given : Bool) :
      (decide (f = other) || given) = given := by
    rw [decide_eq_false different, Bool.false_or]
  cases task with
  | init => exact ⟨rfl, rfl, fun _ => rfl, fun _ => rfl⟩
  | closure a =>
      have follows : f ≠ .followReexports := by
        obtain rfl | rfl := presents
        · decide
        · decide
      simp only [Task.give, kept follows]
      obtain ⟨ending, tree, output, errors⟩ := runClosure_presented t a
        (decide (f = .json) || a.json) (decide (f = .verbose) || a.verbose)
      exact ⟨ending, tree, fun other => output (kept other _), fun other => errors (kept other _)⟩
  | names a =>
      obtain ⟨ending, tree, output, errors⟩ := runNames_presented t a
        (decide (f = .json) || a.json) (decide (f = .verbose) || a.verbose)
      exact ⟨ending, tree, fun other => output (kept other _), fun other => errors (kept other _)⟩

theorem reads_give (presents : f = .verbose ∨ f = .json) (t : FileTree) (task : Task) :
    (task.give f).reads t = task.reads t := by
  obtain rfl | rfl := presents
  · cases task <;> rfl
  · cases task <;> rfl

/-! ### Command lines -/

namespace Response

/-- The failure that ends a command line. -/
def failure? : Response → Option Failure
  | .performed o =>
      match o.ending with
      | .aborted failure => some failure
      | .success | .failure => none
  | .shown _ | .overview _ | .refused _ => none

/-- What is wrong with a command line that is refused. -/
def fault? : Response → Option UsageFault
  | .refused fault => some fault
  | .performed _ | .shown _ | .overview _ => none

/-- Two responses to a tree that end in the same way. -/
structure EndsAs (t : FileTree) (r r' : Response) : Prop where
  code : ∀ colours, (r'.exit colours).code = (r.exit colours).code
  failure : r'.failure? = r.failure?
  tree : r'.tree t = r.tree t

theorem EndsAs.refl (r : Response) : EndsAs t r r := ⟨fun _ => rfl, rfl, rfl⟩

theorem endsAs_refused (fault fault' : UsageFault) :
    EndsAs t (.refused fault) (.refused fault') := ⟨fun _ => rfl, rfl, rfl⟩

theorem exit_performed (o : Outcome) (colours : Bool) :
    ((performed o).exit colours).output = o.output.text colours ∧
      ((performed o).exit colours).code =
        match o.ending with
        | .success => 0
        | .failure => 1
        | .aborted _ => 2 := by
  simp only [exit]
  cases o.ending with
  | success => exact ⟨rfl, rfl⟩
  | failure => exact ⟨rfl, rfl⟩
  | aborted failure => exact ⟨rfl, rfl⟩

theorem endsAs_performed {o o' : Outcome} (presents : o.Presents f o') :
    EndsAs t (.performed o) (.performed o') where
  code := by
    intro colours
    rw [(exit_performed _ _).2, (exit_performed _ _).2, presents.ending]
  failure := by rw [failure?, failure?, presents.ending]
  tree := presents.tree

end Response

/-- The paths of the files that a command line reads. -/
def reads (t : FileTree) (words : List String) : List String :=
  match Request.read words with
  | .ok (.perform task) => task.reads t
  | _ => []

/-- Two command lines that end alike and read the same files; they are refused for the same fault,
unless they are spoilt. -/
structure SameCourse (t : FileTree) (spoilt : Prop) (words words' : List String) : Prop where
  ends : (respond t words).EndsAs t (respond t words')
  reads : reads t words' = reads t words
  fault : ¬ spoilt → (respond t words').fault? = (respond t words).fault?

/-- Two command lines that write the same result. -/
def SameOutput (t : FileTree) (words words' : List String) : Prop :=
  ∀ colours, ((respond t words').exit colours).output = ((respond t words).exit colours).output

theorem sameCourse_of_read {spoilt : Prop} (same : Request.read words' = Request.read words) :
    SameCourse t spoilt words words' ∧ SameOutput t words words' := by
  have response : respond t words' = respond t words := by rw [respond, respond, same]
  refine ⟨⟨?_, ?_, ?_⟩, ?_⟩
  · rw [response]
    exact .refl _
  · rw [Command.reads, Command.reads, same]
  · intro _
    rw [response]
  · intro colours
    rw [response]

/-- Command lines that are read alike, but for a flag that says how results are presented, take the
same course; with `--verbose` they write the same result, too. -/
theorem SameReading.sameCourse {spoilt : Prop} (presents : f = .verbose ∨ f = .json)
    (reading : SameReading f spoilt (Request.read words) (Request.read words')) (t : FileTree) :
    SameCourse t spoilt words words' ∧ (f = .verbose → SameOutput t words words') := by
  generalize read : Request.read words = request at reading
  generalize read' : Request.read words' = request' at reading
  cases reading with
  | helps topic =>
      obtain ⟨course, output⟩ := sameCourse_of_read (read'.trans read.symm)
      exact ⟨course, fun _ => output⟩
  | refuses fault =>
      obtain ⟨course, output⟩ := sameCourse_of_read (read'.trans read.symm)
      exact ⟨course, fun _ => output⟩
  | performs task =>
      have response : respond t words = .performed (task.run t) := by rw [respond, read]
      have response' : respond t words' = .performed ((task.give f).run t) := by
        rw [respond, read']
      have presented := presents_give presents t task
      refine ⟨⟨?_, ?_, ?_⟩, ?_⟩
      · rw [response, response']
        exact Response.endsAs_performed presented
      · rw [Command.reads, Command.reads, read, read']
        exact reads_give presents t task
      · intro _
        rw [response, response', Response.fault?, Response.fault?]
      · intro verbose colours
        rw [response, response', (Response.exit_performed _ _).1, (Response.exit_performed _ _).1,
          presented.output (by simp [verbose])]
  | spoils fault fault' empty =>
      have response : respond t words = .refused fault := by rw [respond, read]
      have response' : respond t words' = .refused fault' := by rw [respond, read']
      refine ⟨⟨?_, ?_, ?_⟩, ?_⟩
      · rw [response, response']
        exact Response.endsAs_refused fault fault'
      · rw [Command.reads, Command.reads, read, read']
      · exact fun unspoilt => absurd empty unspoilt
      · intro _ colours
        rw [response, response']
        rfl

/-- Files that a command line does not read have no influence on what it writes and how it ends. -/
theorem exit_respond_eq {t' : FileTree} (same : SameShape t t') (anchored : t.Anchored)
    (files : ∀ path ∈ reads t words, SameFile t t' path) (colours : Bool) :
    (respond t' words).exit colours = (respond t words).exit colours := by
  unfold reads at files
  unfold respond
  split
  · next task read =>
      rw [read] at files
      rw [task.run_eq same anchored files]
      rfl
  · rfl
  · rfl
  · rfl
  · rfl

theorem read_command {command : String} {g : Grammar}
    (known : command = "closure" ∧ g = .closure ∨ command = "names" ∧ g = .names)
    (rest : List String) : Request.read (command :: rest) = readTask g rest := by
  obtain ⟨rfl, rfl⟩ | ⟨rfl, rfl⟩ := known
  · rfl
  · rfl

theorem gives_verbose {g : Grammar} (known : g = .closure ∨ g = .names) {word : String}
    (spelled : word ∈ ["-v", "--verbose"]) : Gives g word .verbose := by
  simp only [List.mem_cons, List.not_mem_nil, or_false] at spelled
  obtain rfl | rfl := spelled
  · apply gives_of_short rfl (by decide)
    · obtain rfl | rfl := known <;> rfl
    · decide
  · apply gives_of_long rfl (by decide)
    · obtain rfl | rfl := known <;> rfl
    · decide

theorem gives_json {g : Grammar} (known : g = .closure ∨ g = .names) : Gives g "--json" .json := by
  apply gives_of_long rfl (by decide)
  · obtain rfl | rfl := known <;> rfl
  · decide

/-- Presentation flags do not change results. A command line with `-v` or `--verbose` in a place
where flags may stand takes the same course as without it, if it is given only once: it ends with the
same code and the same failure, leaves the same tree, reads the same files, and writes the same
result. With `--json` it takes the same course, too. So does any task, however its flags are spelled.
What a command line is said to read is all that matters to it of the texts of files. -/
theorem presentation_flags (t : FileTree) {command : String} {g : Grammar}
    (known : command = "closure" ∧ g = .closure ∨ command = "names" ∧ g = .names)
    {before : List String} (after : List String) (takes : TakesFlags g before) :
    let line := command :: (before ++ after)
    let flagged := fun word => command :: (before ++ word :: after)
    (∀ word ∈ ["-v", "--verbose"],
      Request.read (flagged word) ≠ .error (.repeatedFlag "--verbose") →
      SameCourse t (Spoils g before) line (flagged word) ∧ SameOutput t line (flagged word)) ∧
    (Request.read (flagged "--json") ≠ .error (.repeatedFlag "--json") →
      SameCourse t (Spoils g before) line (flagged "--json")) ∧
    (∀ task : Task,
      (task.run t).Presents .verbose ((task.give .verbose).run t) ∧
      (task.run t).Presents .json ((task.give .json).run t) ∧
      (task.give .json).reads t = task.reads t) ∧
    ∀ t', SameShape t t' → t.Anchored → ∀ words, (∀ path ∈ reads t words, SameFile t t' path) →
      ∀ colours, (respond t' words).exit colours = (respond t words).exit colours := by
  intro line flagged
  have command : g = .closure ∨ g = .names := known.imp And.right And.right
  have reading {word : String} {f : Flag} (gives : Gives g word f) (plain : f ≠ .help)
      (once : Request.read (flagged word) ≠ .error (.repeatedFlag f.shown)) :
      SameReading f (Spoils g before) (Request.read line) (Request.read (flagged word)) := by
    simp only [line, flagged, read_command known] at once ⊢
    exact sameReading_readTask gives plain takes once
  refine ⟨?_, ?_, ?_, ?_⟩
  · intro word spelled once
    have alike := reading (gives_verbose command spelled) (by decide) once
    obtain ⟨course, output⟩ := alike.sameCourse (.inl rfl) t
    exact ⟨course, output rfl⟩
  · intro once
    have alike := reading (gives_json command) (by decide) once
    exact (alike.sameCourse (.inr rfl) t).1
  · intro task
    exact ⟨presents_give (.inl rfl) t task, presents_give (.inr rfl) t task,
      reads_give (.inr rfl) t task⟩
  · intro t' same anchored words files colours
    exact exit_respond_eq same anchored files colours

/-- A page with a part that leads on to a file that cannot be parsed. -/
def broken : FileTree where
  current := ["w"]
  entries := [(["w"], .directory),
    (["w", "index.ts"], .file (some "export { A } from './a'; export interface Page { a: A }")),
    (["w", "a.ts"], .file (some "export { B } from './b'; export interface A { b: B }")),
    (["w", "b.ts"], .file (some "export interface"))]

theorem presentation_flags_broken :
    let closure := fun flags => ["closure", "index.ts"] ++ flags ++ ["--follow-reexports"]
    let names := fun flags => ["names", "a.ts"] ++ flags ++ ["b.ts"]
    (respond broken (closure ["-v"])).failure? = (respond broken (closure [])).failure? ∧
      ((respond broken (closure [])).failure?).isSome ∧
      reads broken (closure ["--json"]) = ["index.ts", "./a.ts", "././b.ts"] ∧
      ((respond broken (names ["--verbose"])).exit false).output =
        ((respond broken (names [])).exit false).output ∧
      ((respond broken (names ["--json"])).exit false).code = 1 := by
  intro closure names
  have behindFile : TakesFlags .closure ["index.ts"] := by decide +kernel
  have behindPattern : TakesFlags .names ["a.ts"] := by decide +kernel
  obtain ⟨verbose, json, _⟩ :=
    presentation_flags broken (.inl ⟨rfl, rfl⟩) ["--follow-reexports"] behindFile
  have told := (verbose "-v" (by decide) (by decide +kernel)).1.ends.failure
  have read := (json (by decide +kernel)).reads
  obtain ⟨verbose, json, _⟩ :=
    presentation_flags broken (.inr ⟨rfl, rfl⟩) ["b.ts"] behindPattern
  have written := (verbose "--verbose" (by decide) (by decide +kernel)).2 false
  have ended := (json (by decide +kernel)).ends.code false
  refine ⟨told, by decide +kernel, read.trans (by decide +kernel), written,
    ended.trans (by decide +kernel)⟩

end TypeClosure.Command

import Mathlib.Data.List.TakeWhile
import TypeClosure.Command.Arguments

/-!
Command lines that differ in one flag. What stands behind the flag is read alike with it and without
it, unless the flag is given again.
-/

namespace TypeClosure.Command

variable {α β : Type} {f : Flag} {g : Grammar} {s s' : Taken}

/-! ### Readings side by side -/

/-- Two readings that come to related results or stop alike, unless the second one finds that a flag
is repeated. -/
inductive Alike (f : Flag) (related : α → α → Prop) : Except Stop α → Except Stop α → Prop
  | reads {a a' : α} : related a a' → Alike f related (.ok a) (.ok a')
  | stops (stop : Stop) : Alike f related (.error stop) (.error stop)
  | repeats (x : Except Stop α) : Alike f related x (.error (.fault (.repeatedFlag f.shown)))

theorem Alike.bind {related : α → α → Prop} {others : β → β → Prop} {x x' : Except Stop α}
    {k k' : α → Except Stop β} (alike : Alike f related x x')
    (rest : ∀ a a', related a a' → Alike f others (k a) (k' a')) :
    Alike f others (x >>= k) (x' >>= k') := by
  cases alike with
  | reads both => exact rest _ _ both
  | stops stop => exact .stops stop
  | repeats _ => exact .repeats _

theorem Alike.bind_same {others : β → β → Prop} (x : Except Stop α) {k k' : α → Except Stop β}
    (rest : ∀ a, Alike f others (k a) (k' a)) : Alike f others (x >>= k) (x >>= k') := by
  cases x with
  | error stop => exact .stops stop
  | ok a => exact rest a

namespace Taken

/-- What has been taken in, and the same with a flag more. -/
structure Gains (f : Flag) (s s' : Taken) : Prop where
  operands : s'.operands = s.operands
  types : s'.types = s.types
  awaitsType : s'.awaitsType = s.awaitsType
  onlyOperands : s'.onlyOperands = s.onlyOperands
  flags : ∀ other, s'.flags.contains other = (decide (f = other) || s.flags.contains other)

theorem gains (s : Taken) (f : Flag) : s.Gains f { s with flags := s.flags ++ [f] } := by
  refine ⟨rfl, rfl, rfl, rfl, ?_⟩
  intro other
  simp [Bool.or_comm, eq_comm]

namespace Gains

variable (gains : s.Gains f s')

include gains

theorem settle : s'.settle g = s.settle g := by
  rw [Taken.settle, Taken.settle, gains.awaitsType, gains.operands]

theorem addFlag (other : Flag) : Alike f (Gains f) (s.addFlag g other) (s'.addFlag g other) := by
  unfold Taken.addFlag
  rw [gains.settle]
  refine .bind_same _ fun _ => ?_
  by_cases help : other = .help
  · rw [if_pos help, if_pos help]
    exact .stops _
  rw [if_neg help, if_neg help, gains.flags]
  cases already : s.flags.contains other with
  | true =>
      rw [Bool.or_true]
      exact .stops _
  | false =>
      by_cases same : f = other
      · rw [decide_eq_true same, same]
        exact .repeats _
      · rw [decide_eq_false same]
        refine .reads ⟨gains.operands, gains.types, gains.awaitsType, gains.onlyOperands, ?_⟩
        intro flag
        simp only [List.contains_append, gains.flags, Bool.or_assoc]

theorem addType (value : Option String) :
    Alike f (Gains f) (s.addType g value) (s'.addType g value) := by
  unfold Taken.addType
  rw [gains.settle]
  refine .bind_same _ fun _ => ?_
  cases value with
  | none => exact .reads ⟨gains.operands, gains.types, rfl, gains.onlyOperands, gains.flags⟩
  | some v =>
      have types : s'.types ++ [v] = s.types ++ [v] := by rw [gains.types]
      exact .reads ⟨gains.operands, types, gains.awaitsType, gains.onlyOperands, gains.flags⟩

theorem addOperand (word : String) :
    Alike f (Gains f) (s.addOperand g word) (s'.addOperand g word) := by
  have operands : s'.operands ++ [word] = s.operands ++ [word] := by rw [gains.operands]
  have taken : Alike f (Gains f)
      (s.settle g >>= fun _ => .ok { s with operands := s.operands ++ [word] })
      (s'.settle g >>= fun _ => .ok { s' with operands := s'.operands ++ [word] }) := by
    rw [gains.settle]
    refine .bind_same _ fun _ => ?_
    exact .reads ⟨operands, gains.types, gains.awaitsType, gains.onlyOperands, gains.flags⟩
  unfold Taken.addOperand
  rw [gains.operands] at taken ⊢
  cases g.operandBound with
  | none => exact taken
  | some bound =>
      dsimp only
      split
      · exact .stops _
      · exact taken

theorem addLong (text : List Char) :
    Alike f (Gains f) (s.addLong g text) (s'.addLong g text) := by
  unfold Taken.addLong
  dsimp only
  split
  · exact .stops _
  · exact gains.addType _
  · split
    · exact .stops _
    · exact gains.addFlag _

theorem addShort (flags : List Char) :
    Alike f (Gains f) (s.addShort g flags) (s'.addShort g flags) := by
  induction flags generalizing s s' with
  | nil => exact .reads gains
  | cons c rest ih =>
      unfold Taken.addShort
      split
      · exact .stops _
      · split
        · exact gains.addType _
        · exact gains.addType _
        · exact gains.addType _
      · exact (gains.addFlag _).bind fun _ _ gains => ih gains

theorem add (word : String) : Alike f (Gains f) (s.add g word) (s'.add g word) := by
  unfold Taken.add
  rw [gains.onlyOperands, gains.awaitsType]
  split
  · exact gains.addOperand word
  split
  · exact .reads ⟨gains.operands, gains.types, rfl, rfl, gains.flags⟩
  · exact gains.addLong _
  · exact gains.addShort _
  · split
    · have types : s'.types ++ [word] = s.types ++ [word] := by rw [gains.types]
      exact .reads ⟨gains.operands, types, rfl, rfl, gains.flags⟩
    · exact gains.addOperand word

/-- Words that follow are taken in alike. -/
theorem foldlM_add (words : List String) :
    Alike f (Gains f) (words.foldlM (Taken.add g) s) (words.foldlM (Taken.add g) s') := by
  induction words generalizing s s' with
  | nil => exact .reads gains
  | cons word rest ih =>
      rw [List.foldlM_cons, List.foldlM_cons]
      exact (gains.add word).bind fun _ _ gains => ih gains

end Gains

/-! ### Readings that cannot succeed -/

/-- An empty operand has been taken in where none may be. -/
def Spoilt (g : Grammar) (s : Taken) : Prop := g.operandShown ≠ none ∧ "" ∈ s.operands

theorem settle_eq_ok : s.settle g = .ok () ↔ s.awaitsType = false ∧ ¬ s.Spoilt g := by
  unfold settle Spoilt
  cases s.awaitsType with
  | true => simp
  | false =>
      cases g.operandShown with
      | none => simp
      | some text => simp

theorem addFlag_eq (settled : s.settle g = .ok ()) (plain : f ≠ .help) :
    s.addFlag g f = if s.flags.contains f then .error (.fault (.repeatedFlag f.shown))
      else .ok { s with flags := s.flags ++ [f] } := by
  rw [addFlag, settled]
  exact if_neg plain

end Taken

/-- A reading that is not for help, and comes to nothing but what holds. -/
def Refuses (holds : α → Prop) : Except Stop α → Prop
  | .ok a => holds a
  | .error stop => stop ≠ .help

theorem Refuses.bind {holds : α → Prop} {others : β → Prop} {x : Except Stop α}
    {k : α → Except Stop β} (refuses : Refuses holds x)
    (rest : ∀ a, holds a → Refuses others (k a)) : Refuses others (x >>= k) := by
  cases x with
  | error stop => exact refuses
  | ok a => exact rest a refuses

namespace Taken

theorem refuses_settle (s : Taken) (g : Grammar) :
    Refuses (fun _ => ¬ s.Spoilt g) (s.settle g) := by
  cases settled : s.settle g with
  | ok => exact (settle_eq_ok.mp settled).2
  | error stop =>
      unfold settle at settled
      split at settled
      · cases settled
        exact Stop.noConfusion
      · split at settled
        · split at settled
          · cases settled
            exact Stop.noConfusion
          · cases settled
        · cases settled

namespace Spoilt

variable (spoilt : s.Spoilt g)

include spoilt

/-- Whatever is checked first is refused. -/
theorem bind_settle {holds : α → Prop} (k : Unit → Except Stop α) :
    Refuses holds (s.settle g >>= k) :=
  (s.refuses_settle g).bind fun _ unspoilt => absurd spoilt unspoilt

theorem addFlag (other : Flag) : Refuses (Spoilt g) (s.addFlag g other) := spoilt.bind_settle _

theorem addType (value : Option String) : Refuses (Spoilt g) (s.addType g value) :=
  spoilt.bind_settle _

theorem addOperand (word : String) : Refuses (Spoilt g) (s.addOperand g word) := by
  unfold Taken.addOperand
  split
  · split
    · exact Stop.noConfusion
    · exact spoilt.bind_settle _
  · exact spoilt.bind_settle _

theorem addLong (text : List Char) : Refuses (Spoilt g) (s.addLong g text) := by
  unfold Taken.addLong
  dsimp only
  split
  · exact Stop.noConfusion
  · exact spoilt.addType _
  · split
    · exact Stop.noConfusion
    · exact spoilt.addFlag _

theorem addShort (flags : List Char) : Refuses (Spoilt g) (s.addShort g flags) := by
  induction flags generalizing s with
  | nil => exact spoilt
  | cons c rest ih =>
      unfold Taken.addShort
      split
      · exact Stop.noConfusion
      · split
        · exact spoilt.addType _
        · exact spoilt.addType _
        · exact spoilt.addType _
      · exact (spoilt.addFlag _).bind fun _ spoilt => ih spoilt

theorem add (word : String) : Refuses (Spoilt g) (s.add g word) := by
  unfold Taken.add
  split
  · exact spoilt.addOperand word
  split
  · exact spoilt
  · exact spoilt.addLong _
  · exact spoilt.addShort _
  · split
    · exact spoilt
    · exact spoilt.addOperand word

theorem foldlM_add (words : List String) : Refuses (Spoilt g) (words.foldlM (Taken.add g) s) := by
  induction words generalizing s with
  | nil => exact spoilt
  | cons word rest ih =>
      rw [List.foldlM_cons]
      exact (spoilt.add word).bind fun _ spoilt => ih spoilt

end Spoilt

/-- With an empty operand where none may be, no words make a task. -/
theorem refuses_task {x : Except Stop Taken} (refuses : Refuses (Spoilt g) x) :
    Refuses (fun _ => False) (x >>= Taken.task g) :=
  refuses.bind fun _ spoilt => spoilt.bind_settle _

end Taken

/-! ### Tasks that differ in a flag -/

/-- A task with a flag more. -/
def Task.give (f : Flag) : Task → Task
  | .closure a => .closure { a with
      followReexports := decide (f = .followReexports) || a.followReexports
      json := decide (f = .json) || a.json
      verbose := decide (f = .verbose) || a.verbose }
  | .names a => .names { a with
      json := decide (f = .json) || a.json
      verbose := decide (f = .verbose) || a.verbose }
  | .init => .init

theorem Taken.Gains.task (gains : s.Gains f s') :
    Alike f (fun task task' => task' = task.give f) (s.task g) (s'.task g) := by
  unfold Taken.task
  rw [gains.settle]
  refine .bind_same _ fun _ => ?_
  rw [gains.operands, gains.types]
  simp only [gains.flags]
  split
  · exact .reads rfl
  · exact .reads rfl
  · exact .reads rfl
  · exact .stops _

/-! ### Words that give a flag -/

/-- A word gives a flag wherever flags may stand. -/
def Gives (g : Grammar) (word : String) (f : Flag) : Prop :=
  ∀ s : Taken, s.onlyOperands = false → s.add g word = s.addFlag g f

theorem gives_of_short {word : String} {c : Char} (spelled : word.toList = ['-', c])
    (noHyphen : c ≠ '-') (found : g.flags.find? (·.short? == some c) = some f)
    (valueless : f ≠ .type) : Gives g word f := by
  intro s flags
  rw [Taken.add, flags, spelled]
  have alone : s.addShort g [c] = s.addFlag g f := by
    rw [Taken.addShort]
    split
    · next absent => exact absurd (found.symm.trans absent) (Option.some_ne_none _)
    · next typed => exact absurd (Option.some.inj (found.symm.trans typed)) valueless
    · next other _ there =>
        cases Option.some.inj (found.symm.trans there)
        exact bind_pure _
  simp [noHyphen, alone]

theorem gives_of_long {word : String} {c : Char} {text : List Char}
    (spelled : word.toList = '-' :: '-' :: c :: text) (valueless : '=' ∉ c :: text)
    (found : g.flags.find? (·.long == String.ofList (c :: text)) = some f) (plain : f ≠ .type) :
    Gives g word f := by
  intro s flags
  rw [Taken.add, flags, spelled]
  have distinct : ∀ other ∈ c :: text, (other != '=') = true := by
    intro other member
    exact bne_iff_ne.mpr fun same => valueless (same ▸ member)
  have whole : (c :: text).takeWhile (· != '=') = c :: text :=
    List.takeWhile_eq_self_iff.mpr distinct
  have nothing : (c :: text).dropWhile (· != '=') = [] :=
    List.dropWhile_eq_nil_iff.mpr distinct
  have alone : s.addLong g (c :: text) = s.addFlag g f := by
    unfold Taken.addLong
    rw [whole, nothing]
    dsimp only
    split
    · next absent => exact absurd (found.symm.trans absent) (Option.some_ne_none _)
    · next typed => exact absurd (Option.some.inj (found.symm.trans typed)) plain
    · next other _ there =>
        cases Option.some.inj (found.symm.trans there)
        rfl
  simpa using alone

/-- Whether flags may stand behind some words. -/
def TakesFlags (g : Grammar) (words : List String) : Prop :=
  ∀ s, words.foldlM (Taken.add g) {} = .ok s → s.awaitsType = false ∧ s.onlyOperands = false

instance (g : Grammar) (words : List String) : Decidable (TakesFlags g words) :=
  match read : words.foldlM (Taken.add g) {} with
  | .ok s => decidable_of_iff (s.awaitsType = false ∧ s.onlyOperands = false) (by
      simp [TakesFlags, read])
  | .error _ => isTrue (by simp [TakesFlags, read])

/-- Whether an empty operand stands among some words where none may be. -/
def Spoils (g : Grammar) (words : List String) : Prop :=
  ∃ s, words.foldlM (Taken.add g) {} = .ok s ∧ s.Spoilt g

/-- What is read with a flag is what is read without it: the task with the flag more, the same help,
or the same fault; but where the words in front are spoilt, both are refused for any faults. -/
inductive SameReading (f : Flag) (spoilt : Prop) :
    Except UsageFault Request → Except UsageFault Request → Prop
  | performs (task : Task) :
      SameReading f spoilt (.ok (.perform task)) (.ok (.perform (task.give f)))
  | helps (topic : Topic) : SameReading f spoilt (.ok (.showHelp topic)) (.ok (.showHelp topic))
  | refuses (fault : UsageFault) : SameReading f spoilt (.error fault) (.error fault)
  | spoils (fault fault' : UsageFault) : spoilt → SameReading f spoilt (.error fault) (.error fault')

/-- The request that the words of a command come to. -/
def requestOf (topic : Topic) : Except Stop Task → Except UsageFault Request
  | .ok task => .ok (.perform task)
  | .error .help => .ok (.showHelp topic)
  | .error (.fault fault) => .error fault

theorem readTask_eq (g : Grammar) (words : List String) :
    readTask g words = requestOf g.topic (words.foldlM (Taken.add g) {} >>= Taken.task g) := by
  unfold readTask
  cases words.foldlM (Taken.add g) {} >>= Taken.task g with
  | ok task => rfl
  | error stop =>
      cases stop with
      | help => rfl
      | fault fault => rfl

theorem Alike.sameReading {spoilt : Prop} {x x' : Except Stop Task}
    (alike : Alike f (fun task task' => task' = task.give f) x x') (topic : Topic)
    (once : requestOf topic x' ≠ .error (.repeatedFlag f.shown)) :
    SameReading f spoilt (requestOf topic x) (requestOf topic x') := by
  cases alike with
  | reads both =>
      cases both
      exact .performs _
  | repeats _ => exact absurd rfl once
  | stops stop =>
      cases stop with
      | help => exact .helps topic
      | fault fault => exact .refuses fault

theorem Refuses.requestOf {x : Except Stop Task} (refuses : Refuses (fun _ => False) x)
    (topic : Topic) : ∃ fault, requestOf topic x = .error fault := by
  cases x with
  | ok task => exact absurd refuses id
  | error stop =>
      cases stop with
      | help => exact absurd rfl refuses
      | fault fault => exact ⟨fault, rfl⟩

/-- A word that gives a flag changes nothing but the flag, if the flag is given only there. -/
theorem sameReading_readTask {word : String} {before after : List String} (gives : Gives g word f)
    (plain : f ≠ .help) (takes : TakesFlags g before)
    (once : readTask g (before ++ word :: after) ≠ .error (.repeatedFlag f.shown)) :
    SameReading f (Spoils g before) (readTask g (before ++ after))
      (readTask g (before ++ word :: after)) := by
  simp only [readTask_eq, List.foldlM_append, List.foldlM_cons] at once ⊢
  cases begun : before.foldlM (Taken.add g) {} with
  | error stop =>
      rw [begun] at once
      exact (Alike.stops stop).sameReading _ once
  | ok s =>
      obtain ⟨settles, flags⟩ := takes s begun
      rw [begun] at once
      change requestOf g.topic ((s.add g word >>= (after.foldlM (Taken.add g) ·)) >>=
        Taken.task g) ≠ _ at once
      change SameReading f _ (requestOf g.topic (after.foldlM (Taken.add g) s >>= Taken.task g))
        (requestOf g.topic ((s.add g word >>= (after.foldlM (Taken.add g) ·)) >>= Taken.task g))
      rw [gives s flags] at once ⊢
      by_cases spoilt : s.Spoilt g
      · -- The flag is where the empty operand is found; without it that comes later.
        have flagged := (spoilt.addFlag f).bind fun _ spoilt => spoilt.foldlM_add after
        obtain ⟨fault, eq⟩ := (Taken.refuses_task (spoilt.foldlM_add after)).requestOf g.topic
        obtain ⟨fault', eq'⟩ := (Taken.refuses_task flagged).requestOf g.topic
        rw [eq, eq']
        exact .spoils fault fault' ⟨s, begun, spoilt⟩
      · rw [Taken.addFlag_eq (Taken.settle_eq_ok.mpr ⟨settles, spoilt⟩) plain] at once ⊢
        cases already : s.flags.contains f with
        | true =>
            rw [already] at once
            exact absurd rfl once
        | false =>
            rw [already] at once
            exact (((s.gains f).foldlM_add after).bind fun _ _ gains => gains.task).sameReading _ once

end TypeClosure.Command

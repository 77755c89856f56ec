import TypeClosure.Proofs.Grammar.Declared
import TypeClosure.Proofs.Grammar.Places

/-!
What a rule of the grammar finds. A rule goes on along the text, and every declaration that its
answer holds starts at a word of its own between the place where the rule begins and the place
where it ends. The rules are put together by few operations, and this is shown of each of them;
what the grammar builds from them follows by instances.
-/

namespace TypeClosure.Grammar

open Syntax

variable {α β γ : Type}

/-! ### Places -/

/-- The words that a declaration of a type begins with. -/
def declarationWords : List String :=
  ["declare", "const", "interface", "type", "enum", "abstract"]

/-- Whether a word that a declaration begins with stands at an offset of a text. -/
def startsDeclaration (text : List Char) (offset : Nat) : Bool :=
  match (scanLexeme ((Cursor.ofText text).drop offset)).1 with
  | .word word _ => declarationWords.contains word
  | _ => false

theorem spells_of_isWord {t : Token} {word : String} (same : t.isWord word = true) :
    t.spells word = true := by
  rw [Token.isWord, beq_iff_eq] at same
  simp [Token.spells, same]

theorem word_of_spells {t : Token} {word : String} (spells : t.spells word = true) :
    ∃ escaped, t.lexeme = .word word escaped := by
  unfold Token.spells at spells
  split at spells
  · next escaped same => exact ⟨escaped, by rw [same, eq_of_beq spells]⟩
  · exact absurd spells Bool.false_ne_true

/-- A position between the tokens of a text. -/
structure Position.Within (text : List Char) (p : Position) : Prop where
  taken : (Cursor.ofText text).Before p.taken
  first : p.taken.Before p.token.first
  scanned : scanLexeme p.token.first = (p.token.lexeme, p.token.last)

namespace Position

variable {text : List Char} {p q : Position}

/-- How many declarations may still be found at an offset: one, where a word that begins a
declaration stands there and has not been taken. -/
def ahead (text : List Char) (p : Position) (offset : Nat) : Nat :=
  if p.taken.offset ≤ offset ∧ startsDeclaration text offset then 1 else 0

theorem ahead_le (taken : p.taken.offset ≤ q.taken.offset) (offset : Nat) :
    q.ahead text offset ≤ p.ahead text offset := by
  unfold ahead
  split
  · next still => simp [Nat.le_trans taken still.1, still.2]
  · exact Nat.zero_le _

theorem Within.last (within : p.Within text) : p.token.first.Before p.token.last := by
  have before := before_scanLexeme p.token.first
  rwa [within.scanned] at before

theorem Within.startsDeclaration_first (within : p.Within text) :
    startsDeclaration text p.token.first.offset =
      match p.token.lexeme with
      | .word word _ => declarationWords.contains word
      | _ => false := by
  have first := (within.taken.trans within.first).eq_drop
  rw [Cursor.offset_ofText, Nat.sub_zero] at first
  rw [startsDeclaration, ← first, within.scanned]

theorem Within.startsDeclaration_of_spells (within : p.Within text) {word : String}
    (among : word ∈ declarationWords) (spells : p.token.spells word = true) :
    startsDeclaration text p.token.first.offset = true := by
  obtain ⟨escaped, same⟩ := word_of_spells spells
  rw [within.startsDeclaration_first, same]
  exact List.contains_iff_mem.mpr among

/-- A position that a rule goes on from, behind what has been taken. -/
theorem within_scan {taken : Cursor} (within : p.Within text) (behind : p.taken.Before taken) :
    Position.Within text ⟨Token.scan taken, taken⟩ where
  taken := within.taken.trans behind
  first := before_first_scan taken
  scanned := scanLexeme_first_scan taken

/-- A word that begins a declaration can be found once only: it is taken. -/
theorem ahead_advance (within : p.Within text)
    (starts : startsDeclaration text p.token.first.offset = true) (offset : Nat) :
    [p.token.first.offset].count offset +
        Position.ahead text ⟨Token.scan p.token.last, p.token.last⟩ offset ≤
      p.ahead text offset := by
  have progress : p.token.first.offset < p.token.last.offset := by
    rw [within.startsDeclaration_first] at starts
    split at starts
    · next word _ same =>
        refine offset_lt_of_scanLexeme (within.scanned.trans (by rw [same])) ?_
        rintro rfl
        exact absurd starts (by decide)
    · cases starts
  have first := within.first.offset_le
  by_cases here : offset = p.token.first.offset
  · subst here
    have passed : Position.ahead text ⟨Token.scan p.token.last, p.token.last⟩
        p.token.first.offset = 0 := if_neg fun still => Nat.not_le_of_lt progress still.1
    have ahead : p.ahead text p.token.first.offset = 1 := if_pos ⟨first, starts⟩
    simp [passed, ahead]
  · rw [List.count_eq_zero_of_not_mem (by simpa using here), Nat.zero_add]
    exact ahead_le (Nat.le_trans first (Nat.le_of_lt progress)) offset

end Position

/-! ### Going on -/

/-- A rule that takes nothing. -/
class Stays (rule : Parse α) : Prop where
  eq : ∀ {s p a p'}, rule s p = some (a, p') → p' = p

/-- A rule that goes on along the text, or takes nothing. -/
class Advances (text : List Char) (rule : Parse α) : Prop where
  goesOn : ∀ {s p a p'}, p.Within text → rule s p = some (a, p') →
    p'.Within text ∧ p.taken.offset ≤ p'.taken.offset

theorem bind_eq_some {rule : Parse α} {next : α → Parse β} {s : Surroundings} {p : Position}
    {result : β × Position} :
    (rule >>= next) s p = some result ↔
      ∃ a q, rule s p = some (a, q) ∧ next a s q = some result := by
  change (rule s p).bind (fun found => next found.1 s found.2) = some result ↔ _
  rw [Option.bind_eq_some_iff, Prod.exists]

section

variable {text : List Char}

instance stays_pure (a : α) : Stays (pure a : Parse α) where
  eq := fun h => by cases h; rfl

instance stays_failure : Stays (failure : Parse α) where
  eq := fun h => by cases h

instance stays_get : Stays (get : Parse Position) where
  eq := fun h => by cases h; rfl

instance stays_read : Stays (read : Parse Surroundings) where
  eq := fun h => by cases h; rfl

instance stays_lookAhead (rule : Parse Bool) : Stays (lookAhead rule) where
  eq := by
    intro s p a p' h
    unfold lookAhead at h
    split at h
    · cases h
      rfl
    · cases h
      rfl

instance stays_bind (rule : Parse α) (next : α → Parse β) [here : Stays rule]
    [there : ∀ a, Stays (next a)] : Stays (rule >>= next) where
  eq := by
    intro s p b p' h
    obtain ⟨a, q, first, second⟩ := bind_eq_some.mp h
    rw [(there a).eq second, here.eq first]

instance stays_ite (c : Prop) [Decidable c] (rule rule' : Parse α) [yes : Stays rule]
    [no : Stays rule'] : Stays (if c then rule else rule') := by
  split
  · exact yes
  · exact no

instance (priority := low) advances_of_stays (rule : Parse α) [stays : Stays rule] :
    Advances text rule where
  goesOn := by
    intro s p a p' within h
    rw [stays.eq h]
    exact ⟨within, Nat.le_refl _⟩

instance advances_bind (rule : Parse α) (next : α → Parse β) [here : Advances text rule]
    [there : ∀ a, Advances text (next a)] : Advances text (rule >>= next) where
  goesOn := by
    intro s p b p' within h
    obtain ⟨a, q, first, second⟩ := bind_eq_some.mp h
    obtain ⟨within, start⟩ := here.goesOn within first
    obtain ⟨within, rest⟩ := (there a).goesOn within second
    exact ⟨within, Nat.le_trans start rest⟩

theorem Advances.ite {c : Prop} [Decidable c] {rule rule' : Parse α}
    (yes : Advances text rule) (no : Advances text rule') :
    Advances text (if c then rule else rule') := by
  split
  · exact yes
  · exact no

instance advances_ite (c : Prop) [Decidable c] (rule rule' : Parse α) [yes : Advances text rule]
    [no : Advances text rule'] : Advances text (if c then rule else rule') := .ite yes no

instance advances_attempt (rule : Parse α) [inside : Advances text rule] :
    Advances text (attempt rule) where
  goesOn := by
    intro s p a p' within h
    unfold attempt at h
    split at h
    · next found =>
        cases h
        exact inside.goesOn within found
    · cases h
      exact ⟨within, Nat.le_refl _⟩

instance advances_advance : Advances text advance where
  goesOn := by
    intro s p a p' within h
    cases h
    have behind := within.first.trans within.last
    exact ⟨Position.within_scan within behind, behind.offset_le⟩

end

/-! ### Finding declarations -/

/-- Goes from a position on to another one, along the text: each declaration that is held in the
end was held before, or it starts at a word of its own that has been taken. -/
structure Position.Finds (text : List Char) (p : Position) (owned : List Nat) (p' : Position)
    (held : List Nat) : Prop where
  within : p'.Within text
  goesOn : p.taken.offset ≤ p'.taken.offset
  found : ∀ offset, held.count offset + p'.ahead text offset ≤
    owned.count offset + p.ahead text offset

namespace Position.Finds

variable {text : List Char} {p q r : Position} {owned held kept : List Nat}

theorem stay (within : p.Within text)
    (subset : ∀ offset, held.count offset ≤ owned.count offset) :
    p.Finds text owned p held where
  within := within
  goesOn := Nat.le_refl _
  found := fun offset => Nat.add_le_add_right (subset offset) _

/-- Goes on without finding anything. -/
theorem pass (within : q.Within text) (goesOn : p.taken.offset ≤ q.taken.offset)
    (owned : List Nat) : p.Finds text owned q owned where
  within := within
  goesOn := goesOn
  found := fun offset => Nat.add_le_add_left (Position.ahead_le goesOn offset) _

theorem trans (first : p.Finds text owned q held) (second : q.Finds text held r kept) :
    p.Finds text owned r kept where
  within := second.within
  goesOn := Nat.le_trans first.goesOn second.goesOn
  found := fun offset => Nat.le_trans (second.found offset) (first.found offset)

/-- What was held beside is held still. -/
theorem frame (kept : List Nat) (finds : p.Finds text owned q held) :
    p.Finds text (kept ++ owned) q (kept ++ held) where
  within := finds.within
  goesOn := finds.goesOn
  found := by
    intro offset
    rw [List.count_append, List.count_append, Nat.add_assoc, Nat.add_assoc]
    exact Nat.add_le_add_left (finds.found offset) _

/-- Takes a word that a declaration begins with. -/
theorem take (within : p.Within text)
    (starts : startsDeclaration text p.token.first.offset = true) (owned : List Nat) :
    p.Finds text owned ⟨Token.scan p.token.last, p.token.last⟩
      (owned ++ [p.token.first.offset]) where
  within := Position.within_scan within (within.first.trans within.last)
  goesOn := (within.first.trans within.last).offset_le
  found := by
    intro offset
    rw [List.count_append, Nat.add_assoc]
    exact Nat.add_le_add_left (Position.ahead_advance within starts offset) _

end Position.Finds

/-- What a rule does from a position on: it finds what its answer holds beyond `owned`. -/
structure FindsFrom (text : List Char) (owned : List Nat) [Declaring α] (rule : Parse α)
    (p : Position) : Prop where
  found : ∀ {s a p'}, rule s p = some (a, p') → p.Finds text owned p' (declared a)

/-- A rule that finds what it answers, wherever it begins. -/
class Finds (text : List Char) (owned : List Nat) [Declaring α] (rule : Parse α) : Prop where
  finds : ∀ {p}, p.Within text → FindsFrom text owned rule p

variable {text : List Char} {owned : List Nat}

/-! From a position that is known. -/

theorem eatWord_eq (word : String) (s : Surroundings) (p : Position) :
    eatWord word s p =
      if p.token.isWord word then some (true, ⟨Token.scan p.token.last, p.token.last⟩)
      else some (false, p) := by
  change (if p.token.isWord word then advance >>= fun _ => pure true else pure false) s p = _
  split
  · rfl
  · rfl

namespace FindsFrom

variable [Declaring β] {p : Position}

theorem pure [Declaring α] {a : α} (within : p.Within text)
    (subset : ∀ offset, (declared a).count offset ≤ owned.count offset) :
    FindsFrom text owned (pure a : Parse α) p where
  found := by
    intro s b p' h
    cases h
    exact .stay within subset

/-- Goes on with an answer that nothing was taken for. -/
theorem look {rule : Parse α} {next : α → Parse β} [stays : Stays rule]
    (there : ∀ s a, rule s p = some (a, p) → FindsFrom text owned (next a) p) :
    FindsFrom text owned (rule >>= next) p where
  found := by
    intro s b p' h
    obtain ⟨a, q, first, second⟩ := bind_eq_some.mp h
    cases stays.eq first
    exact (there s a first).found second

theorem peek {rule : Parse α} {next : α → Parse β} [Stays rule]
    (there : ∀ a, FindsFrom text owned (next a) p) : FindsFrom text owned (rule >>= next) p :=
  .look fun _ a _ => there a

theorem token {next : Token → Parse β} (there : FindsFrom text owned (next p.token) p) :
    FindsFrom text owned (Grammar.token >>= next) p where
  found := fun h => there.found h

theorem here {next : Cursor → Parse β} (there : FindsFrom text owned (next p.token.first) p) :
    FindsFrom text owned (Grammar.here >>= next) p where
  found := fun h => there.found h

theorem get {next : Position → Parse β} (there : FindsFrom text owned (next p) p) :
    FindsFrom text owned (MonadState.get >>= next) p where
  found := fun h => there.found h

theorem isAtWord {word : String} {next : Bool → Parse β}
    (there : FindsFrom text owned (next (p.token.isWord word)) p) :
    FindsFrom text owned (Grammar.isAtWord word >>= next) p where
  found := fun h => there.found h

theorem failure : FindsFrom text owned (Alternative.failure : Parse β) p where
  found := fun h => by cases h

theorem ite {c : Prop} [Decidable c] {rule rule' : Parse β}
    (yes : c → FindsFrom text owned rule p) (no : ¬c → FindsFrom text owned rule' p) :
    FindsFrom text owned (if c then rule else rule') p := by
  split
  · next h => exact yes h
  · next h => exact no h

theorem of_finds (within : p.Within text) {rule : Parse β} (rest : Finds text owned rule) :
    FindsFrom text owned rule p := rest.finds within

theorem resume (within : p.Within text) {taken : Cursor} (behind : p.taken.Before taken)
    {next : Unit → Parse β} (rest : Finds text owned (next ())) :
    FindsFrom text owned (Grammar.resume taken >>= next) p where
  found := by
    intro s b p' h
    have within' := Position.within_scan within behind
    exact (Position.Finds.pass within' behind.offset_le owned).trans
      ((rest.finds within').found h)

/-- Past a word that a declaration begins with, this declaration is found. -/
theorem advance (within : p.Within text)
    (starts : startsDeclaration text p.token.first.offset = true) {next : Unit → Parse β}
    (rest : Finds text (owned ++ [p.token.first.offset]) (next ())) :
    FindsFrom text owned (Grammar.advance >>= next) p where
  found := by
    intro s b p' h
    have taken := Position.Finds.take within starts owned
    exact taken.trans ((rest.finds taken.within).found h)

/-- Goes back where a rule behind the next token answers nothing. -/
theorem goBack (within : p.Within text) {rule : Parse (Option β)}
    {next : Option β → Parse (Option β)}
    (here : FindsFrom text owned (Grammar.advance >>= fun _ => rule) p)
    (hit : ∀ b, next (some b) = Pure.pure (some b))
    (miss : next none = (do set p; Pure.pure none)) :
    FindsFrom text owned (Grammar.advance >>= fun _ => rule >>= next) p where
  found := by
    intro s b p' h
    obtain ⟨u, q, first, h⟩ := bind_eq_some.mp h
    obtain ⟨answer, r, second, h⟩ := bind_eq_some.mp h
    cases answer with
    | none =>
        rw [miss] at h
        cases h
        exact .stay within fun _ => Nat.zero_le _
    | some c =>
        rw [hit] at h
        cases h
        exact here.found (bind_eq_some.mpr ⟨u, q, first, second⟩)

theorem attempt (within : p.Within text) {rule : Parse β} (inside : FindsFrom text owned rule p) :
    FindsFrom text owned (Grammar.attempt rule) p where
  found := by
    intro s a p' h
    unfold Grammar.attempt at h
    split at h
    · next run =>
        cases h
        exact inside.found run
    · cases h
      exact .stay within fun _ => Nat.zero_le _

theorem through [Declaring α] {rule : Parse α} {next : α → Parse β}
    (here : FindsFrom text owned rule p) (there : ∀ a, Finds text (declared a) (next a)) :
    FindsFrom text owned (rule >>= next) p where
  found := by
    intro s b p' h
    obtain ⟨a, q, first, second⟩ := bind_eq_some.mp h
    have found := here.found first
    exact found.trans (((there a).finds found.within).found second)

/-- Goes on behind a word that a declaration may begin with, or where it stands if another word
comes next. -/
theorem eatWord (within : p.Within text) {word : String} (among : word ∈ declarationWords)
    {next : Bool → Parse β} (yes : Finds text (owned ++ [p.token.first.offset]) (next true))
    (no : FindsFrom text owned (next false) p) :
    FindsFrom text owned (Grammar.eatWord word >>= next) p where
  found := by
    intro s b p' h
    obtain ⟨a, q, first, second⟩ := bind_eq_some.mp h
    rw [eatWord_eq] at first
    split at first
    · next same =>
        cases first
        have starts := within.startsDeclaration_of_spells among (spells_of_isWord same)
        have taken := Position.Finds.take within starts owned
        exact taken.trans ((yes.finds taken.within).found second)
    · cases first
      exact no.found second

end FindsFrom

/-! From any position. -/

namespace Finds

variable [Declaring β]

theorem pure [Declaring α] {a : α}
    (subset : ∀ offset, (declared a).count offset ≤ owned.count offset) :
    Finds text owned (pure a : Parse α) where
  finds := fun within => .pure within subset

theorem ite {c : Prop} [Decidable c] {rule rule' : Parse β} (yes : Finds text owned rule)
    (no : Finds text owned rule') : Finds text owned (if c then rule else rule') where
  finds := fun within => .ite (fun _ => yes.finds within) fun _ => no.finds within

/-- Goes on behind a rule whose answer is not kept. -/
theorem next {rule : Parse α} {next : α → Parse β} [here : Advances text rule]
    (there : ∀ a, Finds text owned (next a)) : Finds text owned (rule >>= next) where
  finds := by
    intro p within
    constructor
    intro s b p' h
    obtain ⟨a, q, first, second⟩ := bind_eq_some.mp h
    obtain ⟨within, start⟩ := here.goesOn within first
    exact (Position.Finds.pass within start owned).trans
      (((there a).finds within).found second)

/-- Goes on with what a rule answers, which may hold what it was given, beside what it was not
given. -/
theorem frame [Declaring α] {kept used : List Nat} {rule : Parse α} {next : α → Parse β}
    (here : Finds text used rule) (there : ∀ a, Finds text (kept ++ declared a) (next a)) :
    Finds text (kept ++ used) (rule >>= next) where
  finds := by
    intro p within
    constructor
    intro s b p' h
    obtain ⟨a, q, first, second⟩ := bind_eq_some.mp h
    have found := ((here.finds within).found first).frame kept
    exact found.trans (((there a).finds found.within).found second)

theorem through [Declaring α] {rule : Parse α} {next : α → Parse β}
    (here : Finds text owned rule) (there : ∀ a, Finds text (declared a) (next a)) :
    Finds text owned (rule >>= next) where
  finds := fun within => .through (here.finds within) there

/-- Goes on with what a rule has found. -/
theorem andThen [Declaring α] {rule : Parse α} {next : α → Parse β} (here : Finds text [] rule)
    (there : ∀ a, Finds text (owned ++ declared a) (next a)) :
    Finds text owned (rule >>= next) := by
  have both := frame here there
  rwa [List.append_nil] at both

/-- Goes on with the answer of a rule, or with what it was given where it answers nothing. -/
theorem tries [Declaring α] {rule : Parse (Option α)} {next : Option α → Parse β}
    (here : Finds text owned rule) (hit : ∀ a, Finds text (declared a) (next (some a)))
    (miss : Finds text owned (next none)) : Finds text owned (rule >>= next) where
  finds := by
    intro p within
    constructor
    intro s b p' h
    obtain ⟨a, q, first, second⟩ := bind_eq_some.mp h
    have found := (here.finds within).found first
    cases a with
    | none =>
        exact (Position.Finds.pass found.within found.goesOn owned).trans
          ((miss.finds found.within).found second)
    | some a => exact found.trans (((hit a).finds found.within).found second)

theorem bind [Declaring α] {rule : Parse α} {next : α → Parse β} [here : Finds text [] rule]
    (there : ∀ a, Finds text (owned ++ declared a) (next a)) :
    Finds text owned (rule >>= next) := andThen here there

/-- Goes on with what either of two rules has found. -/
theorem ite_andThen [Declaring α] {c : Prop} [Decidable c] {rule rule' : Parse α}
    {next : α → Parse β} (yes : Finds text [] rule) (no : Finds text [] rule')
    (there : ∀ a, Finds text (owned ++ declared a) (next a)) :
    Finds text owned (if c then rule >>= next else rule' >>= next) :=
  .ite (.andThen yes there) (.andThen no there)

theorem ite_bind [Declaring α] {c : Prop} [Decidable c] {rule rule' : Parse α}
    {next : α → Parse β} [yes : Finds text [] rule] [no : Finds text [] rule']
    (there : ∀ a, Finds text (owned ++ declared a) (next a)) :
    Finds text owned (if c then rule >>= next else rule' >>= next) := ite_andThen yes no there

/-- Goes on behind either of two rules. -/
theorem ite_next {c : Prop} [Decidable c] {rule : Parse α} {rule' : Parse γ} {rest : Parse β}
    [Advances text rule] [Advances text rule'] (there : Finds text owned rest) :
    Finds text owned (if c then rule >>= fun _ => rest else rule' >>= fun _ => rest) :=
  .ite (.next fun _ => there) (.next fun _ => there)

/-- Goes on behind a rule that is left out where a condition fails. -/
theorem ite_skip {c : Prop} [Decidable c] {rule : Parse α} {rest : Parse β}
    [Advances text rule] (there : Finds text owned rest) :
    Finds text owned (if c then rule >>= fun _ => rest else rest) :=
  .ite (.next fun _ => there) there

/-- Goes on where several branches meet. -/
theorem meet {there : Prop} {rule : Parse β} (branches : there → Finds text owned rule)
    (rest : there) : Finds text owned rule := branches rest

/-- Goes on behind a detour that a condition may make. -/
theorem ite_rejoin {c : Prop} [Decidable c] {detour rest : Parse β}
    (around : Finds text owned rest → Finds text owned detour) (there : Finds text owned rest) :
    Finds text owned (if c then detour else rest) := .ite (around there) there

theorem withReader (f : Surroundings → Surroundings) {rule : Parse β}
    (inside : Finds text owned rule) : Finds text owned (MonadWithReader.withReader f rule) where
  finds := fun within => ⟨fun h => (inside.finds within).found h⟩

theorem attempt {rule : Parse β} (inside : Finds text owned rule) :
    Finds text owned (Grammar.attempt rule) where
  finds := fun within => .attempt within (inside.finds within)

theorem from_token {next : Token → Parse β}
    (there : ∀ p, p.Within text → FindsFrom text owned (next p.token) p) :
    Finds text owned (token >>= next) where
  finds := fun within => .token (there _ within)

theorem from_here {next : Cursor → Parse β}
    (there : ∀ p, p.Within text → FindsFrom text owned (next p.token.first) p) :
    Finds text owned (here >>= next) where
  finds := fun within => .here (there _ within)

theorem from_isAtWord {word : String} {next : Bool → Parse β}
    (there : ∀ p, p.Within text → FindsFrom text owned (next (p.token.isWord word)) p) :
    Finds text owned (isAtWord word >>= next) where
  finds := fun within => .isAtWord (there _ within)

theorem from_get {next : Position → Parse β}
    (there : ∀ p, p.Within text → FindsFrom text owned (next p) p) :
    Finds text owned (get >>= next) where
  finds := fun within => .get (there _ within)

theorem weaken {rule : Parse β} (inside : Finds text [] rule) : Finds text owned rule where
  finds := by
    intro p within
    constructor
    intro s a p' h
    exact (Position.Finds.stay within fun _ => Nat.zero_le _).trans
      ((inside.finds within).found h)

end Finds

section

variable [Declaring α] [Declaring β]

instance (priority := low) advances_of_finds (rule : Parse α) [finding : Finds text [] rule] :
    Advances text rule where
  goesOn := by
    intro s p a p' within h
    have found := (finding.finds within).found h
    exact ⟨found.within, found.goesOn⟩

instance finds_failure : Finds text owned (failure : Parse α) where
  finds := fun _ => .failure

instance finds_failure_bind (next : α → Parse β) : Finds text owned (failure >>= next) where
  finds := fun _ => ⟨fun h => by cases h⟩

instance finds_pure_nil : Finds text owned (Pure.pure [] : Parse (List α)) :=
  .pure fun _ => Nat.zero_le _

instance finds_pure_none : Finds text owned (Pure.pure none : Parse (Option α)) :=
  .pure fun _ => Nat.zero_le _

instance finds_map (f : α → β) [keeps : Keeps f] (rule : Parse α) [Finds text [] rule] :
    Finds text [] (rule >>= fun a => Pure.pure (f a)) :=
  .bind fun a => .pure fun offset => Nat.le_of_eq (by rw [keeps.declared_eq, List.nil_append])

instance finds_next (rule : Parse α) (next : α → Parse β) [Advances text rule]
    [there : ∀ a, Finds text owned (next a)] : Finds text owned (rule >>= next) := .next there

instance finds_ite (c : Prop) [Decidable c] (rule rule' : Parse α) [yes : Finds text owned rule]
    [no : Finds text owned rule'] : Finds text owned (if c then rule else rule') := .ite yes no

instance finds_withReader (f : Surroundings → Surroundings) (rule : Parse α)
    [inside : Finds text owned rule] : Finds text owned (withReader f rule) := .withReader f inside

instance finds_attempt (rule : Parse α) [inside : Finds text owned rule] :
    Finds text owned (attempt rule) := .attempt inside

end

/-! ### The rules of tokens -/

instance stays_token : Stays token := by
  unfold token
  infer_instance

instance stays_tokenAfter : Stays tokenAfter := by
  unfold tokenAfter
  infer_instance

instance stays_isAt (m : Mark) : Stays (isAt m) := by
  unfold isAt
  infer_instance

instance stays_isAtWord (w : String) : Stays (isAtWord w) := by
  unfold isAtWord
  infer_instance

instance stays_isAtAnyWord : Stays isAtAnyWord := by
  unfold isAtAnyWord
  infer_instance

instance stays_isAtReference : Stays isAtReference := by
  unfold isAtReference
  infer_instance

instance stays_isAtEnd : Stays isAtEnd := by
  unfold isAtEnd
  infer_instance

instance stays_onNewLine : Stays onNewLine := by
  unfold onNewLine
  infer_instance

instance stays_here : Stays here := by
  unfold here
  infer_instance

instance stays_textFrom (first : Cursor) : Stays (textFrom first) := by
  unfold textFrom
  infer_instance

instance stays_require (b : Bool) : Stays (require b) := by
  unfold require
  infer_instance

instance stays_mayEndStatement : Stays mayEndStatement := by
  unfold mayEndStatement
  infer_instance

instance advances_eat (m : Mark) : Advances text (eat m) := by
  unfold eat
  infer_instance

instance advances_eatWord (w : String) : Advances text (eatWord w) := by
  unfold eatWord
  infer_instance

instance advances_expect (m : Mark) : Advances text (expect m) := by
  unfold expect
  infer_instance

instance advances_expectWord (w : String) : Advances text (expectWord w) := by
  unfold expectWord
  infer_instance

instance advances_eatStatementEnd : Advances text eatStatementEnd := by
  unfold eatStatementEnd
  infer_instance

instance advances_endStatement : Advances text endStatement := by
  unfold endStatement
  infer_instance

theorem Advances.bind {rule : Parse α} {next : α → Parse β} [Advances text rule]
    (there : ∀ a, Advances text (next a)) : Advances text (rule >>= next) := inferInstance

instance advances_eatOneOf (marks : List Mark) : Advances text (eatOneOf marks) := by
  refine Advances.bind fun t => ?_
  split
  · infer_instance
  · infer_instance

instance advances_name : Advances text name := by
  refine Advances.bind fun t => ?_
  split
  · infer_instance
  · infer_instance

instance advances_privateName : Advances text privateName := by
  unfold privateName
  infer_instance

instance advances_selectedName : Advances text selectedName := by
  unfold selectedName
  infer_instance

instance advances_boundName : Advances text boundName := by
  refine Advances.bind fun t => ?_
  split
  · infer_instance
  · infer_instance
  · infer_instance

/-! ### Repetition -/

instance advances_repeatUpTo (n : Nat) (rule : Parse (Option α)) [Advances text rule] :
    Advances text (repeatUpTo n rule) := by
  induction n with
  | zero => exact inferInstanceAs (Advances text failure)
  | succ n ih =>
      refine Advances.bind fun
        | none => ?_
        | some a => ?_
      · infer_instance
      · infer_instance

instance advances_repeated (rule : Parse (Option α)) [Advances text rule] :
    Advances text (repeated rule) := by
  unfold repeated
  infer_instance

instance advances_separatedUpTo (n : Nat) (stop : Parse Bool) (rule : Parse α) [Advances text stop]
    [Advances text rule] : Advances text (separatedUpTo n stop rule) := by
  induction n with
  | zero => exact inferInstanceAs (Advances text failure)
  | succ n ih =>
      unfold separatedUpTo
      infer_instance

instance advances_separated (stop : Parse Bool) (rule : Parse α) [Advances text stop]
    [Advances text rule] : Advances text (separated stop rule) := by
  unfold separated
  infer_instance

section

variable [Declaring α]

theorem Finds.repeatUpTo (n : Nat) {rule : Parse (Option α)} (inside : Finds text [] rule) :
    Finds text [] (Grammar.repeatUpTo n rule) := by
  induction n with
  | zero => exact inferInstanceAs (Finds text [] failure)
  | succ n ih =>
      refine .bind fun
        | none => .pure fun _ => Nat.zero_le _
        | some a => .bind fun rest => .pure fun offset => ?_
      simp

theorem Finds.repeated {rule : Parse (Option α)} (inside : Finds text [] rule) :
    Finds text [] (Grammar.repeated rule) :=
  .next fun _ => .repeatUpTo _ inside

instance finds_repeated (rule : Parse (Option α)) [inside : Finds text [] rule] :
    Finds text [] (repeated rule) := .repeated inside

instance finds_separatedUpTo (n : Nat) (stop : Parse Bool) (rule : Parse α) [Advances text stop]
    [Finds text [] rule] : Finds text [] (separatedUpTo n stop rule) := by
  induction n with
  | zero => exact inferInstanceAs (Finds text [] failure)
  | succ n ih =>
      refine .next fun _ => .ite (.pure fun _ => Nat.zero_le _) ?_
      refine .bind fun a => .next fun comma => .ite ?_ ?_
      · exact .bind fun rest => .pure fun offset => by simp
      · exact .next fun _ => .next fun _ => .pure fun offset => by simp

instance finds_separated (stop : Parse Bool) (rule : Parse α) [Advances text stop]
    [Finds text [] rule] : Finds text [] (separated stop rule) := by
  unfold separated
  infer_instance

instance finds_nested (rule : Parse α) [Finds text owned rule] :
    Finds text owned (nested rule) := by
  unfold nested
  infer_instance

end

/-! ### The rules that nesting comes back to -/

/-- Rules that find what they answer. -/
class Rules.Sound (text : List Char) (rules : Rules) : Prop where
  type : Finds text [] rules.type
  boundType : Finds text [] rules.boundType
  typeOperand : Finds text [] rules.typeOperand
  pattern : Finds text [] rules.pattern
  assignment : Finds text [] rules.assignment
  binary : Finds text [] rules.binary
  unary : Finds text [] rules.unary
  applied : ∀ calls, Finds text [] (rules.applied calls)
  element : Finds text [] rules.element
  heritage : Finds text [] rules.heritage
  statement : ∀ declarations, Finds text [] (rules.statement declarations)
  moduleItem : Finds text [] rules.moduleItem

attribute [instance] Rules.Sound.type Rules.Sound.boundType Rules.Sound.typeOperand
  Rules.Sound.pattern Rules.Sound.assignment Rules.Sound.binary Rules.Sound.unary
  Rules.Sound.applied Rules.Sound.element Rules.Sound.heritage Rules.Sound.statement
  Rules.Sound.moduleItem

end TypeClosure.Grammar

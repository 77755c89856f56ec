import TypeClosure.Proofs.Grammar.Module
import TypeClosure.Proofs.Grammar.Placement

/-!
In which order a rule of the grammar answers declarations. What it answers is visited in the order
of the text, local code apart: a declaration that stands outside of all local code starts in front
of all that is visited later. A rule finds its declarations between the place where it begins and
the place where it ends, so that this is shown of each rule from its parts.
-/

namespace TypeClosure

/-! ### Spots -/

/-- Where a declaration starts, and whether it stands outside of all local code. -/
structure Spot where
  offset : Nat
  outside : Bool

/-- What stands outside of local code starts in front of what is visited later. -/
def Spot.Precedes (spot later : Spot) : Prop := spot.outside = true → spot.offset < later.offset

/-- The spots of declarations in local code. -/
def Spot.inside (offsets : List Nat) : List Spot := offsets.map (⟨·, false⟩)

mutual
/-- The spots of the declarations in a statement, in the order in which they are visited. -/
def Node.spots : Node → List Spot
  | .type d codes | .exportedDefault d codes =>
      ⟨d.offset, true⟩ :: Spot.inside (LocalCode.offsetsOfAll codes)
  | .value parts | .statement parts | .module parts => Node.spotsOfAll parts
  | .code c => Spot.inside c.offsets
  | .exported n => n.spots
  | .exportList _ | .reexport _ _ => []

def Node.spotsOfAll : List Node → List Spot
  | [] => []
  | n :: ns => n.spots ++ Node.spotsOfAll ns
end

theorem Node.spotsOfAll_eq_flatMap (ns : List Node) :
    Node.spotsOfAll ns = ns.flatMap Node.spots := by
  induction ns with
  | nil => rfl
  | cons n ns ih => rw [Node.spotsOfAll, ih, List.flatMap_cons]

namespace Spot

@[simp] theorem inside_nil : inside [] = [] := rfl

@[simp] theorem inside_append (offsets offsets' : List Nat) :
    inside (offsets ++ offsets') = inside offsets ++ inside offsets' := List.map_append

theorem outside_of_mem_inside {offsets : List Nat} {spot : Spot}
    (member : spot ∈ inside offsets) : spot.outside = false := by
  obtain ⟨_, -, rfl⟩ := List.mem_map.mp member
  rfl

@[simp] theorem map_offset_inside (offsets : List Nat) :
    (inside offsets).map Spot.offset = offsets := by
  simp [inside, Function.comp_def]

end Spot

/-- Spots in the order in which they are visited, which is that of the text, local code apart. -/
def InOrder (spots : List Spot) : Prop := spots.Pairwise Spot.Precedes

@[simp] theorem inOrder_nil : InOrder [] := .nil

/-- Local code is in front of anything. -/
theorem inOrder_append_of_local {spots later : List Spot}
    (inside : ∀ spot ∈ spots, spot.outside = false) :
    InOrder (spots ++ later) ↔ InOrder later := by
  have none {spot : Spot} (member : spot ∈ spots) (other : Spot) : spot.Precedes other :=
    fun outside => absurd ((inside spot member).symm.trans outside) Bool.false_ne_true
  rw [InOrder, List.pairwise_append]
  refine ⟨fun ⟨_, rest, _⟩ => rest, fun rest => ⟨?_, rest, ?_⟩⟩
  · exact List.pairwise_of_forall_mem_list fun _ member other _ => none member other
  · exact fun _ member other _ => none member other

@[simp] theorem inOrder_inside_append (offsets : List Nat) (later : List Spot) :
    InOrder (Spot.inside offsets ++ later) ↔ InOrder later :=
  inOrder_append_of_local fun _ member => Spot.outside_of_mem_inside member

@[simp] theorem inOrder_inside (offsets : List Nat) : InOrder (Spot.inside offsets) := by
  have alone := inOrder_inside_append offsets []
  rw [List.append_nil] at alone
  exact alone.mpr .nil

namespace Grammar

open Spot Syntax

variable {α β γ : Type}

/-- What a rule answers, by the spots of the declarations in it. -/
class Placing (α : Type) [Declaring α] where
  placed : α → List Spot
  map_offset : ∀ a, (placed a).map Spot.offset = declared a

export Placing (placed)

mutual
theorem map_offset_spots (n : Node) : n.spots.map Spot.offset = n.offsets := by
  cases n with
  | type d code => exact congrArg (d.offset :: ·) (map_offset_inside _)
  | exportedDefault d code => exact congrArg (d.offset :: ·) (map_offset_inside _)
  | value parts => exact map_offset_spotsOfAll parts
  | statement parts => exact map_offset_spotsOfAll parts
  | module items => exact map_offset_spotsOfAll items
  | code code => exact map_offset_inside _
  | exported n => exact map_offset_spots n
  | exportList _ => rfl
  | reexport _ _ => rfl

theorem map_offset_spotsOfAll (ns : List Node) :
    (Node.spotsOfAll ns).map Spot.offset = Node.offsetsOfAll ns := by
  cases ns with
  | nil => rfl
  | cons n ns =>
      rw [Node.spotsOfAll, List.map_append, map_offset_spots n, map_offset_spotsOfAll ns,
        Node.offsetsOfAll]
end

instance placingNode : Placing Node := ⟨Node.spots, map_offset_spots⟩

instance placingList [Declaring α] [Placing α] : Placing (List α) where
  placed := fun list => list.flatMap placed
  map_offset := by
    intro list
    induction list with
    | nil => rfl
    | cons a list ih =>
        rw [List.flatMap_cons, List.map_append, Placing.map_offset, ih, declared_cons]

instance placingOption [Declaring α] [Placing α] : Placing (Option α) where
  placed := fun answer => (answer.map placed).getD []
  map_offset := by
    intro answer
    cases answer with
    | none => rfl
    | some a => exact Placing.map_offset a

section

variable [Declaring α] [Placing α]

@[simp] theorem placed_nil : placed ([] : List α) = [] := rfl

@[simp] theorem placed_cons (a : α) (list : List α) :
    placed (a :: list) = placed a ++ placed list := rfl

@[simp] theorem placed_append (list list' : List α) :
    placed (list ++ list') = placed list ++ placed list' := List.flatMap_append

@[simp] theorem placed_flatten (lists : List (List α)) : placed lists.flatten = placed lists := by
  induction lists with
  | nil => rfl
  | cons list lists ih => rw [List.flatten_cons, placed_append, placed_cons, ih]

@[simp] theorem placed_none : placed (none : Option α) = [] := rfl

@[simp] theorem placed_some (a : α) : placed (some a) = placed a := rfl

end

@[simp] theorem placed_type (d : TypeDecl) (code : List LocalCode) :
    placed (Node.type d code) = ⟨d.offset, true⟩ :: inside (declared code) :=
  congrArg (Spot.mk d.offset true :: inside ·) (LocalCode.offsetsOfAll_eq_flatMap code)

@[simp] theorem placed_exportedDefault (d : TypeDecl) (code : List LocalCode) :
    placed (Node.exportedDefault d code) = ⟨d.offset, true⟩ :: inside (declared code) :=
  congrArg (Spot.mk d.offset true :: inside ·) (LocalCode.offsetsOfAll_eq_flatMap code)

@[simp] theorem placed_value (parts : List Node) :
    placed (Node.value parts) = placed parts := Node.spotsOfAll_eq_flatMap parts

@[simp] theorem placed_statement (parts : List Node) :
    placed (Node.statement parts) = placed parts := Node.spotsOfAll_eq_flatMap parts

@[simp] theorem placed_module (items : List Node) :
    placed (Node.module items) = placed items := Node.spotsOfAll_eq_flatMap items

@[simp] theorem placed_code (code : LocalCode) :
    placed (Node.code code) = inside (declared code) := rfl

@[simp] theorem placed_exported (n : Node) : placed (Node.exported n) = placed n := rfl

@[simp] theorem placed_exportList (specifiers : List ExportSpecifier) :
    placed (Node.exportList specifiers) = [] := rfl

@[simp] theorem placed_reexport (specifiers : List ExportSpecifier) (source : Option String) :
    placed (Node.reexport specifiers source) = [] := rfl

@[simp] theorem placed_mapCode (code : List LocalCode) :
    placed (code.map Node.code) = inside (declared code) := by
  induction code with
  | nil => rfl
  | cons c code ih =>
      rw [List.map_cons, placed_cons, ih, placed_code, declared_cons, inside_append]

@[simp] theorem placed_ofCode (code : List LocalCode) :
    placed (ofCode code) = inside (declared code) := by
  simp [ofCode]

/-! ### Answers in order -/

variable {text : List Char} {spots : List Spot} {p q : Position}

/-- Spots that lie in front of a position, in order. -/
structure Position.Passed (text : List Char) (p : Position) (spots : List Spot) : Prop where
  within : p.Within text
  inOrder : InOrder spots
  behind : ∀ spot ∈ spots, spot.offset < p.taken.offset

/-- The declarations in an answer are in order. -/
def Ordered [Declaring α] [Placing α] (a : α) : Prop := InOrder (placed a)

/-- Whatever a rule answers from a position on is in order. -/
structure ArrangesFrom [Declaring α] [Placing α] (rule : Parse α) (p : Position) : Prop where
  ordered : ∀ {s a q}, rule s p = some (a, q) → Ordered a

/-- A rule answers in order wherever some spots have been passed. -/
class Arranges (text : List Char) (spots : List Spot) [Declaring α] [Placing α]
    (rule : Parse α) : Prop where
  arranges : ∀ {p}, p.Passed text spots → ArrangesFrom rule p

namespace Position.Passed

theorem nil (within : p.Within text) : p.Passed text [] := ⟨within, .nil, by simp⟩

theorem on (passed : p.Passed text spots) (within : q.Within text)
    (goesOn : p.taken.offset ≤ q.taken.offset) : q.Passed text spots where
  within := within
  inOrder := passed.inOrder
  behind := fun spot member => Nat.lt_of_lt_of_le (passed.behind spot member) goesOn

end Position.Passed

namespace Position

/-- What is found on the way from one position to another lies between them. -/
theorem between_of_found {n offset : Nat} (some : 0 < n)
    (found : n + q.ahead text offset ≤ p.ahead text offset) :
    p.taken.offset ≤ offset ∧ offset < q.taken.offset := by
  have here : p.taken.offset ≤ offset ∧ startsDeclaration text offset = true := by
    refine Classical.byContradiction fun out => ?_
    have none : p.ahead text offset = 0 := if_neg out
    omega
  refine ⟨here.1, Nat.lt_of_not_le fun still => ?_⟩
  have most : p.ahead text offset = 1 := if_pos here
  have one : q.ahead text offset = 1 := if_pos ⟨still, here.2⟩
  omega

namespace Passed

/-- What a rule answers behind passed spots is passed behind them. -/
theorem append [Declaring α] [Placing α] {a : α} (passed : p.Passed text spots)
    (finds : p.Finds text [] q (declared a)) (ordered : Ordered a) :
    q.Passed text (spots ++ placed a) := by
  have between (spot : Spot) (member : spot ∈ placed a) :
      p.taken.offset ≤ spot.offset ∧ spot.offset < q.taken.offset := by
    have held : spot.offset ∈ declared a := by
      rw [← Placing.map_offset]
      exact List.mem_map_of_mem member
    have found := finds.found spot.offset
    rw [List.count_nil, Nat.zero_add] at found
    exact between_of_found (List.count_pos_iff.mpr held) found
  refine ⟨finds.within, List.pairwise_append.mpr ⟨passed.inOrder, ordered, ?_⟩, ?_⟩
  · exact fun spot member later member' _ =>
      Nat.lt_of_lt_of_le (passed.behind spot member) (between later member').1
  · exact List.forall_mem_append.mpr ⟨(passed.on finds.within finds.goesOn).behind,
      fun spot member => (between spot member).2⟩

/-- A word that has been taken is passed as the start of a declaration. -/
theorem take (passed : p.Passed text spots)
    (starts : startsDeclaration text p.token.first.offset = true) :
    (Position.mk (Token.scan p.token.last) p.token.last).Passed text
      (spots ++ [⟨p.token.first.offset, true⟩]) := by
  have taken := Position.Finds.take passed.within starts []
  refine ⟨taken.within,
    List.pairwise_append.mpr ⟨passed.inOrder, List.pairwise_singleton _ _, ?_⟩,
    List.forall_mem_append.mpr ⟨(passed.on taken.within taken.goesOn).behind, ?_⟩⟩
  · intro spot member later member' _
    cases List.mem_singleton.mp member'
    exact Nat.lt_of_lt_of_le (passed.behind spot member) passed.within.first.offset_le
  · intro spot member
    cases List.mem_singleton.mp member
    have found := taken.found p.token.first.offset
    rw [List.nil_append, List.count_singleton_self, List.count_nil, Nat.zero_add] at found
    exact (between_of_found Nat.one_pos found).2

end Passed

end Position

/-! From a position that is known. -/

namespace ArrangesFrom

variable [Declaring β] [Placing β]

theorem peek {rule : Parse α} {next : α → Parse β} [stays : Stays rule]
    (there : ∀ a, ArrangesFrom (next a) p) : ArrangesFrom (rule >>= next) p where
  ordered := by
    intro s b q run
    obtain ⟨a, q, first, second⟩ := bind_eq_some.mp run
    cases stays.eq first
    exact (there a).ordered second

theorem token {next : Token → Parse β} (there : ArrangesFrom (next p.token) p) :
    ArrangesFrom (Grammar.token >>= next) p where
  ordered := fun run => there.ordered run

theorem here {next : Cursor → Parse β} (there : ArrangesFrom (next p.token.first) p) :
    ArrangesFrom (Grammar.here >>= next) p where
  ordered := fun run => there.ordered run

theorem ite {c : Prop} [Decidable c] {rule rule' : Parse β} (yes : c → ArrangesFrom rule p)
    (no : ¬c → ArrangesFrom rule' p) : ArrangesFrom (if c then rule else rule') p := by
  split
  · next h => exact yes h
  · next h => exact no h

theorem of_passed (passed : p.Passed text spots) {rule : Parse β}
    (rest : Arranges text spots rule) : ArrangesFrom rule p := rest.arranges passed

/-- Past a word that a declaration begins with, its spot has been passed. -/
theorem advance (passed : p.Passed text spots)
    (starts : startsDeclaration text p.token.first.offset = true) {next : Unit → Parse β}
    (rest : Arranges text (spots ++ [⟨p.token.first.offset, true⟩]) (next ())) :
    ArrangesFrom (Grammar.advance >>= next) p where
  ordered := fun run => (rest.arranges (passed.take starts)).ordered run

theorem attempt {rule : Parse β} (inside : ArrangesFrom rule p) :
    ArrangesFrom (Grammar.attempt rule) p where
  ordered := by
    intro s a q run
    unfold Grammar.attempt at run
    split at run
    · next found =>
        cases run
        exact inside.ordered found
    · cases run
      exact .nil

/-- Goes on behind an answer in order. -/
theorem through [Declaring α] [Placing α] {owned : List Nat} {rule : Parse α}
    {next : α → Parse β} (passed : p.Passed text spots) (finds : FindsFrom text owned rule p)
    (here : ArrangesFrom rule p) (there : ∀ a, Ordered a → Arranges text spots (next a)) :
    ArrangesFrom (rule >>= next) p where
  ordered := by
    intro s b q run
    obtain ⟨a, q, first, second⟩ := bind_eq_some.mp run
    have found := finds.found first
    have passed := passed.on found.within found.goesOn
    exact ((there a (here.ordered first)).arranges passed).ordered second

/-- Goes on behind a word that a declaration may begin with, or where it stands if another word
comes next. -/
theorem eatWord (passed : p.Passed text spots) {word : String} (among : word ∈ declarationWords)
    {next : Bool → Parse β}
    (yes : Arranges text (spots ++ [⟨p.token.first.offset, true⟩]) (next true))
    (no : ArrangesFrom (next false) p) : ArrangesFrom (Grammar.eatWord word >>= next) p where
  ordered := by
    intro s b q run
    obtain ⟨a, q, first, second⟩ := bind_eq_some.mp run
    rw [eatWord_eq] at first
    split at first
    · next same =>
        cases first
        have starts := passed.within.startsDeclaration_of_spells among (spells_of_isWord same)
        exact (yes.arranges (passed.take starts)).ordered second
    · cases first
      exact no.ordered second

end ArrangesFrom

/-! From any position behind passed spots. -/

namespace Arranges

variable [Declaring β] [Placing β]

theorem of_answers {rule : Parse β} (held : Answers Ordered rule) : Arranges text spots rule where
  arranges := fun _ => ⟨fun run => held.holds run⟩

theorem pure {b : β} (kept : InOrder spots → InOrder (placed b)) :
    Arranges text spots (pure b : Parse β) where
  arranges := by
    intro p passed
    constructor
    intro s b q run
    cases run
    exact kept passed.inOrder

theorem ite {c : Prop} [Decidable c] {rule rule' : Parse β} (yes : Arranges text spots rule)
    (no : Arranges text spots rule') : Arranges text spots (if c then rule else rule') where
  arranges := fun passed => .ite (fun _ => yes.arranges passed) fun _ => no.arranges passed

/-- Goes on behind a rule of whose answer something is known. -/
theorem knowing {holds : γ → Prop} {rule : Parse γ} {next : γ → Parse β}
    [here : Advances text rule] (known : Answers holds rule)
    (there : ∀ c, holds c → Arranges text spots (next c)) :
    Arranges text spots (rule >>= next) where
  arranges := by
    intro p passed
    constructor
    intro s b q run
    obtain ⟨c, q, first, second⟩ := bind_eq_some.mp run
    obtain ⟨within, goesOn⟩ := here.goesOn passed.within first
    exact ((there c (known.holds first)).arranges (passed.on within goesOn)).ordered second

/-- Goes on behind a rule whose answer is not kept. -/
theorem next {rule : Parse γ} {next : γ → Parse β} [Advances text rule]
    (there : ∀ c, Arranges text spots (next c)) : Arranges text spots (rule >>= next) :=
  knowing ⟨fun _ => trivial⟩ fun c (_ : True) => there c

/-- Goes on with what a rule answers behind what has been passed. -/
theorem andThen [Declaring α] [Placing α] {rule : Parse α} {next : α → Parse β}
    (finds : Finds text [] rule) (here : Arranges text [] rule)
    (there : ∀ a, Arranges text (spots ++ placed a) (next a)) :
    Arranges text spots (rule >>= next) where
  arranges := by
    intro p passed
    constructor
    intro s b q run
    obtain ⟨a, q, first, second⟩ := bind_eq_some.mp run
    have found := (finds.finds passed.within).found first
    have ordered := (here.arranges (.nil passed.within)).ordered first
    exact ((there a).arranges (passed.append found ordered)).ordered second

/-- Answers the same declarations in another form. -/
theorem map [Declaring α] [Placing α] {f : α → β} {rule : Parse α}
    (inside : Arranges text spots rule) (same : ∀ a, placed (f a) = placed a) :
    Arranges text spots (rule >>= fun a => Pure.pure (f a)) where
  arranges := by
    intro p passed
    constructor
    intro s b q run
    obtain ⟨a, q, first, second⟩ := bind_eq_some.mp run
    cases second
    rw [Ordered, same]
    exact (inside.arranges passed).ordered first

theorem bind [Declaring α] [Placing α] {rule : Parse α} {next : α → Parse β}
    [finds : Finds text [] rule] [here : Arranges text [] rule]
    (there : ∀ a, Arranges text (spots ++ placed a) (next a)) :
    Arranges text spots (rule >>= next) := andThen finds here there

/-- Goes on behind an answer in order. -/
theorem through [Declaring α] [Placing α] {owned : List Nat} {rule : Parse α}
    {next : α → Parse β} (finds : Finds text owned rule) (here : Arranges text spots rule)
    (there : ∀ a, Ordered a → Arranges text spots (next a)) :
    Arranges text spots (rule >>= next) where
  arranges := fun passed => .through passed (finds.finds passed.within) (here.arranges passed) there

/-- Goes on where several branches meet. -/
theorem meet {there : Prop} {rule : Parse β} (branches : there → Arranges text spots rule)
    (rest : there) : Arranges text spots rule := branches rest

theorem weaken {rule : Parse β} (inside : Arranges text [] rule) : Arranges text spots rule where
  arranges := fun passed => inside.arranges (.nil passed.within)

theorem withReader (f : Surroundings → Surroundings) {rule : Parse β}
    (inside : Arranges text spots rule) :
    Arranges text spots (MonadWithReader.withReader f rule) where
  arranges := fun passed => ⟨fun run => (inside.arranges passed).ordered run⟩

theorem from_token {next : Token → Parse β}
    (there : ∀ p, p.Passed text spots → ArrangesFrom (next p.token) p) :
    Arranges text spots (token >>= next) where
  arranges := fun passed => ⟨fun run => (there _ passed).ordered run⟩

theorem from_here {next : Cursor → Parse β}
    (there : ∀ p, p.Passed text spots → ArrangesFrom (next p.token.first) p) :
    Arranges text spots (here >>= next) where
  arranges := fun passed => ⟨fun run => (there _ passed).ordered run⟩

theorem from_isAtWord {word : String} {next : Bool → Parse β}
    (there : ∀ p, p.Passed text spots → ArrangesFrom (next (p.token.isWord word)) p) :
    Arranges text spots (isAtWord word >>= next) where
  arranges := fun passed => ⟨fun run => (there _ passed).ordered run⟩

theorem repeatUpTo (n : Nat) {rule : Parse (Option β)} (finds : Finds text [] rule)
    (inside : Arranges text [] rule) : Arranges text [] (Grammar.repeatUpTo n rule) := by
  induction n with
  | zero => exact .of_answers answers_failure
  | succ n ih =>
      refine .andThen finds inside fun answer => ?_
      cases answer with
      | none => exact .pure (by simp)
      | some b => exact .andThen (.repeatUpTo n finds) ih fun rest => .pure (by simp)

theorem repeated {rule : Parse (Option β)} (finds : Finds text [] rule)
    (inside : Arranges text [] rule) : Arranges text [] (Grammar.repeated rule) :=
  .next fun _ => .repeatUpTo _ finds inside

end Arranges

instance arranges_ite [Declaring β] [Placing β] (c : Prop) [Decidable c] (rule rule' : Parse β)
    [yes : Arranges text spots rule] [no : Arranges text spots rule'] :
    Arranges text spots (if c then rule else rule') := .ite yes no

instance (priority := low) arranges_next [Declaring β] [Placing β] (rule : Parse γ)
    (next : γ → Parse β) [Advances text rule] [there : ∀ c, Arranges text spots (next c)] :
    Arranges text spots (rule >>= next) := .next there

/-! ### The rules that nesting comes back to -/

/-- Rules that answer declarations in order. -/
class Rules.Sequential (text : List Char) (rules : Rules) : Prop where
  statement : ∀ declarations, Arranges text [] (rules.statement declarations)
  moduleItem : Arranges text [] rules.moduleItem

attribute [instance] Rules.Sequential.statement Rules.Sequential.moduleItem

end Grammar

end TypeClosure

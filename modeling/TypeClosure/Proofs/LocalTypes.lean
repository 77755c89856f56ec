import TypeClosure.Listing
import TypeClosure.Proofs.FileClosure
import TypeClosure.Proofs.Grammar.Module
import TypeClosure.Proofs.TreeShape

/-!
Which of all type declarations of a file are collected: those that no function, arrow function,
class or other declaration encloses. They are found one by one, each at its place in the text.
-/

namespace TypeClosure

/-! ### All declarations of an outline -/

/-- What may stand around a declaration: a namespace or a module of its kind, the code of a
function, an arrow function, a class or an accessor, and another declaration of a type. -/
inductive Enclosure where
  | module
  | code (scope : LocalScope)
  | declaration
deriving Repr, DecidableEq

/-- A declaration of a type, with what stands around it, from the outside in. -/
structure Occurrence where
  around : List Enclosure
  decl : TypeDecl

mutual
/-- All declarations in a statement, those in its local code included. -/
def Node.occurrences (around : List Enclosure) : Node → List Occurrence
  | .type d code | .exportedDefault d code =>
      ⟨around, d⟩ :: LocalCode.occurrencesOfAll (around ++ [.declaration]) code
  | .value parts | .statement parts => Node.occurrencesOfAll around parts
  | .module items => Node.occurrencesOfAll (around ++ [.module]) items
  | .code code => code.occurrences around
  | .exported n => n.occurrences around
  | .exportList _ | .reexport _ _ => []

def LocalCode.occurrences (around : List Enclosure) : LocalCode → List Occurrence
  | .mk scope parts => Node.occurrencesOfAll (around ++ [.code scope]) parts

def Node.occurrencesOfAll (around : List Enclosure) : List Node → List Occurrence
  | [] => []
  | n :: ns => n.occurrences around ++ Node.occurrencesOfAll around ns

def LocalCode.occurrencesOfAll (around : List Enclosure) : List LocalCode → List Occurrence
  | [] => []
  | code :: rest => code.occurrences around ++ LocalCode.occurrencesOfAll around rest
end

/-- All declarations of a file, in the order in which they are visited. -/
def Source.occurrences (s : Source) : List Occurrence := Node.occurrencesOfAll [] s.items

namespace Enclosure

/-- Whether declarations inside are collected with those around. -/
def isEntered : Enclosure → Bool
  | .module | .code .accessor => true
  | .code .function | .code .arrow | .code .classBody | .declaration => false

theorem isEntered_iff {e : Enclosure} : e.isEntered = true ↔ e = .module ∨ e = .code .accessor := by
  cases e with
  | module | declaration => simp [isEntered]
  | code scope => cases scope <;> simp [isEntered]

end Enclosure

namespace Occurrence

def isCollected (o : Occurrence) : Bool := o.around.all Enclosure.isEntered

/-- The declaration as it is collected from a text. -/
def entry (text : List Char) (o : Occurrence) : TableEntry :=
  ⟨o.decl, Text.lineAt text o.decl.offset⟩

theorem isCollected_iff {o : Occurrence} :
    o.isCollected = true ↔ ∀ e ∈ o.around, e = .module ∨ e = .code .accessor := by
  rw [isCollected, List.all_eq_true]
  exact forall₂_congr fun _ _ => Enclosure.isEntered_iff

end Occurrence

/-! ### Where declarations start -/

mutual
theorem Node.map_offset_occurrences (around : List Enclosure) (n : Node) :
    (n.occurrences around).map (·.decl.offset) = n.offsets := by
  cases n with
  | type d code => exact congrArg (d.offset :: ·) (LocalCode.map_offset_occurrencesOfAll _ code)
  | exportedDefault d code =>
      exact congrArg (d.offset :: ·) (LocalCode.map_offset_occurrencesOfAll _ code)
  | value parts => exact Node.map_offset_occurrencesOfAll around parts
  | statement parts => exact Node.map_offset_occurrencesOfAll around parts
  | module items => exact Node.map_offset_occurrencesOfAll _ items
  | code code => exact code.map_offset_occurrences around
  | exported n => exact n.map_offset_occurrences around
  | exportList _ => rfl
  | reexport _ _ => rfl

theorem LocalCode.map_offset_occurrences (around : List Enclosure) (code : LocalCode) :
    (code.occurrences around).map (·.decl.offset) = code.offsets := by
  cases code with
  | mk scope parts => exact Node.map_offset_occurrencesOfAll _ parts

theorem Node.map_offset_occurrencesOfAll (around : List Enclosure) (ns : List Node) :
    (Node.occurrencesOfAll around ns).map (·.decl.offset) = Node.offsetsOfAll ns := by
  cases ns with
  | nil => rfl
  | cons n ns =>
      rw [Node.occurrencesOfAll, List.map_append, n.map_offset_occurrences,
        Node.map_offset_occurrencesOfAll around ns, Node.offsetsOfAll]

theorem LocalCode.map_offset_occurrencesOfAll (around : List Enclosure) (codes : List LocalCode) :
    (LocalCode.occurrencesOfAll around codes).map (·.decl.offset) =
      LocalCode.offsetsOfAll codes := by
  cases codes with
  | nil => rfl
  | cons code rest =>
      rw [LocalCode.occurrencesOfAll, List.map_append, code.map_offset_occurrences,
        LocalCode.map_offset_occurrencesOfAll around rest, LocalCode.offsetsOfAll]
end

/-! ### What stands around declarations -/

/-- A property of places that holds further inside too. Inside a declaration of a type, there are
others in local code only. -/
structure KeptInside (holds : List Enclosure → Prop) : Prop where
  module : ∀ {around}, holds around → holds (around ++ [.module])
  code : ∀ {around} scope, holds around → holds (around ++ [.code scope])
  declaration : ∀ {around} scope, holds around → holds (around ++ [.declaration] ++ [.code scope])

namespace KeptInside

variable {holds : List Enclosure → Prop}

mutual
theorem occurrences (kept : KeptInside holds) {around : List Enclosure} (n : Node)
    (here : holds around) : ∀ o ∈ n.occurrences around, holds o.around := by
  cases n with
  | type d code =>
      exact List.forall_mem_cons.mpr
        ⟨here, kept.occurrencesOfCodes code fun scope => kept.declaration scope here⟩
  | exportedDefault d code =>
      exact List.forall_mem_cons.mpr
        ⟨here, kept.occurrencesOfCodes code fun scope => kept.declaration scope here⟩
  | value parts => exact kept.occurrencesOfAll parts here
  | statement parts => exact kept.occurrencesOfAll parts here
  | module items => exact kept.occurrencesOfAll items (kept.module here)
  | code code => exact kept.occurrencesOfCode code fun scope => kept.code scope here
  | exported n => exact kept.occurrences n here
  | exportList _ => exact fun o member => absurd member List.not_mem_nil
  | reexport _ _ => exact fun o member => absurd member List.not_mem_nil

theorem occurrencesOfCode (kept : KeptInside holds) {around : List Enclosure} (code : LocalCode)
    (inside : ∀ scope, holds (around ++ [.code scope])) :
    ∀ o ∈ code.occurrences around, holds o.around := by
  cases code with
  | mk scope parts => exact kept.occurrencesOfAll parts (inside scope)

theorem occurrencesOfAll (kept : KeptInside holds) {around : List Enclosure} (ns : List Node)
    (here : holds around) : ∀ o ∈ Node.occurrencesOfAll around ns, holds o.around := by
  cases ns with
  | nil => exact fun o member => absurd member List.not_mem_nil
  | cons n ns =>
      intro o member
      rcases List.mem_append.mp member with first | later
      · exact kept.occurrences n here o first
      · exact kept.occurrencesOfAll ns here o later

theorem occurrencesOfCodes (kept : KeptInside holds) {around : List Enclosure}
    (codes : List LocalCode) (inside : ∀ scope, holds (around ++ [.code scope])) :
    ∀ o ∈ LocalCode.occurrencesOfAll around codes, holds o.around := by
  cases codes with
  | nil => exact fun o member => absurd member List.not_mem_nil
  | cons code rest =>
      intro o member
      rcases List.mem_append.mp member with first | later
      · exact kept.occurrencesOfCode code inside o first
      · exact kept.occurrencesOfCodes rest inside o later
end

end KeptInside

/-- Between two declarations of which one stands in the other, there is local code. -/
theorem exists_code_of_declaration {s : Source} {o : Occurrence} (member : o ∈ s.occurrences)
    (within : Enclosure.declaration ∈ o.around) : ∃ scope, Enclosure.code scope ∈ o.around := by
  have kept : KeptInside fun around =>
      Enclosure.declaration ∈ around → ∃ scope, Enclosure.code scope ∈ around :=
    { module := by simp
      code := by simp
      declaration := by simp }
  exact kept.occurrencesOfAll s.items (fun none => absurd none List.not_mem_nil) o member within

theorem isCollected_of_no_code {s : Source} {o : Occurrence} (member : o ∈ s.occurrences)
    (outside : ∀ scope, Enclosure.code scope ∉ o.around) : o.isCollected = true := by
  rw [Occurrence.isCollected_iff]
  intro e around
  cases e with
  | module => exact .inl rfl
  | code scope => exact absurd around (outside scope)
  | declaration =>
      obtain ⟨scope, code⟩ := exists_code_of_declaration member around
      exact absurd code (outside scope)

/-! ### What is collected -/

theorem keptInside_not_entered :
    KeptInside fun around => around.all Enclosure.isEntered = false where
  module := fun out => by simp only [List.all_append, out, Bool.false_and]
  code := fun _ out => by simp only [List.all_append, out, Bool.false_and]
  declaration := fun _ out => by simp only [List.all_append, out, Bool.false_and]

theorem filter_occurrences_not_entered {around : List Enclosure} (ns : List Node)
    (out : around.all Enclosure.isEntered = false) :
    (Node.occurrencesOfAll around ns).filter Occurrence.isCollected = [] := by
  rw [List.filter_eq_nil_iff]
  intro o member
  rw [Occurrence.isCollected, keptInside_not_entered.occurrencesOfAll ns out o member]
  exact Bool.false_ne_true

theorem filter_occurrences_declaration {around : List Enclosure}
    (entered : around.all Enclosure.isEntered = true) (d : TypeDecl) (codes : List LocalCode) :
    (⟨around, d⟩ :: LocalCode.occurrencesOfAll (around ++ [.declaration]) codes).filter
      Occurrence.isCollected = [⟨around, d⟩] := by
  have inside : (LocalCode.occurrencesOfAll (around ++ [.declaration]) codes).filter
      Occurrence.isCollected = [] := by
    -- Local code of a declaration stands behind that declaration, which is not entered.
    rw [List.filter_eq_nil_iff]
    intro o member
    have out := keptInside_not_entered.occurrencesOfCodes codes (fun scope => by
      simp [Enclosure.isEntered]) o member
    rw [Occurrence.isCollected, out]
    exact Bool.false_ne_true
  rw [List.filter_cons, inside, Occurrence.isCollected, if_pos entered]

@[simp] theorem Contents.table_markTo (c : Contents) (depth : Nat) (n : Node) :
    (n.markTo depth c).table = c.table := by
  unfold Node.markTo
  split
  · exact Contents.table_mark _ _ _
  · rfl

@[simp] theorem Contents.table_markList (c : Contents) (depth : Nat)
    (specifiers : List ExportSpecifier) : (c.markList depth specifiers).table = c.table := by
  unfold Contents.markList
  induction specifiers generalizing c with
  | nil => rfl
  | cons specifier rest ih =>
      rw [List.foldl_cons, ih]
      split
      · exact Contents.table_mark _ _ _
      · rfl
      · rfl

section

variable (text : List Char)

mutual
theorem Node.toList_table_addTo {around : List Enclosure}
    (entered : around.all Enclosure.isEntered = true) (depth : Nat) (c : Contents) (n : Node) :
    (n.addTo text depth c).table.toList = c.table.toList ++
      ((n.occurrences around).filter Occurrence.isCollected).map (Occurrence.entry text) := by
  cases n with
  | type d codes =>
      rw [Node.occurrences, filter_occurrences_declaration entered]
      exact Table.toList_insert _ _
  | exportedDefault d codes =>
      rw [Node.occurrences, filter_occurrences_declaration entered, Node.addTo, Contents.declare,
        Table.toList_insert, Contents.table_mark]
      rfl
  | value parts => exact Node.toList_table_addAllTo entered depth c parts
  | statement parts => exact Node.toList_table_addAllTo entered depth c parts
  | module items =>
      exact Node.toList_table_addAllTo (by simp [entered, Enclosure.isEntered]) (depth + 1) c items
  | code code => exact code.toList_table_addTo entered depth c
  | exported n =>
      have inside := n.toList_table_addTo entered depth (n.markTo depth c)
      rwa [Contents.table_markTo] at inside
  | exportList specifiers => simp [Node.addTo, Node.occurrences]
  | reexport specifiers source => simp [Node.addTo, Node.occurrences]

theorem LocalCode.toList_table_addTo {around : List Enclosure}
    (entered : around.all Enclosure.isEntered = true) (depth : Nat) (c : Contents)
    (code : LocalCode) :
    (code.addTo text depth c).table.toList = c.table.toList ++
      ((code.occurrences around).filter Occurrence.isCollected).map (Occurrence.entry text) := by
  cases code with
  | mk scope parts =>
      have left_out (out : (Enclosure.code scope).isEntered = false) :
          ((LocalCode.mk scope parts).occurrences around).filter Occurrence.isCollected = [] :=
        filter_occurrences_not_entered parts (by simp [out])
      cases scope with
      | accessor =>
          exact Node.toList_table_addAllTo (by simp [entered, Enclosure.isEntered]) depth c parts
      | function => simp [left_out rfl, LocalCode.addTo]
      | arrow => simp [left_out rfl, LocalCode.addTo]
      | classBody => simp [left_out rfl, LocalCode.addTo]

theorem Node.toList_table_addAllTo {around : List Enclosure}
    (entered : around.all Enclosure.isEntered = true) (depth : Nat) (c : Contents)
    (ns : List Node) :
    (Node.addAllTo text depth c ns).table.toList = c.table.toList ++
      ((Node.occurrencesOfAll around ns).filter Occurrence.isCollected).map
        (Occurrence.entry text) := by
  cases ns with
  | nil => simp [Node.addAllTo, Node.occurrencesOfAll]
  | cons n ns =>
      rw [Node.addAllTo, Node.toList_table_addAllTo entered, n.toList_table_addTo entered,
        Node.occurrencesOfAll, List.filter_append, List.map_append, List.append_assoc]
end

end

namespace Source

variable {path text : String} {s : Source}

/-- The declarations that are collected, in the order in which they are visited. -/
def collected (s : Source) : List Occurrence := s.occurrences.filter Occurrence.isCollected

theorem toList_table_contents (s : Source) :
    s.contents.table.toList = s.collected.map (Occurrence.entry s.text) :=
  Node.toList_table_addAllTo s.text rfl 0 {} s.items

theorem exists_collected_of_get? {position : Nat} {e : TableEntry}
    (found : s.contents.table.get? position = some e) :
    ∃ o ∈ s.collected, o.entry s.text = e := by
  rw [Table.get?_eq, toList_table_contents] at found
  exact List.mem_map.mp (List.mem_of_getElem? found)

theorem outline_of_read (read : Source.read? path text = some s) :
    outline? path s.text = some s.items := by
  obtain ⟨items, parsed, rfl⟩ := Option.map_eq_some_iff.mp read
  exact parsed

theorem nodup_offsets_occurrences (read : Source.read? path text = some s) :
    (s.occurrences.map (·.decl.offset)).Nodup := by
  rw [occurrences, Node.map_offset_occurrencesOfAll]
  exact nodup_offsets_outline (outline_of_read read)

theorem nodup_offsets_table (read : Source.read? path text = some s) :
    (s.contents.table.toList.map (·.decl.offset)).Nodup := by
  rw [toList_table_contents, List.map_map]
  exact (nodup_offsets_occurrences read).sublist (List.filter_sublist.map _)

/-- A declaration is known by the place where it starts. -/
theorem occurrence_eq_of_offset (read : Source.read? path text = some s) {o other : Occurrence}
    (member : o ∈ s.occurrences) (member' : other ∈ s.occurrences)
    (same : o.decl.offset = other.decl.offset) : o = other :=
  List.inj_on_of_nodup_map (nodup_offsets_occurrences read) member member' same

/-- Each declaration that no local code encloses is collected as it is, with the line on which its
first word stands, and it is collected once. -/
theorem collected_once (read : Source.read? path text = some s) :
    (s.occurrences.map (·.decl.offset)).Nodup ∧
      ∀ o ∈ s.occurrences, (∀ scope, Enclosure.code scope ∉ o.around) →
        Grammar.startsDeclaration s.text o.decl.offset = true ∧
        ∃ position, s.contents.table.get? position =
            some ⟨o.decl, Text.lineAt s.text o.decl.offset⟩ ∧
          ∀ other e, s.contents.table.get? other = some e → e.decl.offset = o.decl.offset →
            other = position := by
  refine ⟨nodup_offsets_occurrences read, fun o member outside => ⟨?_, ?_⟩⟩
  · apply startsDeclaration_outline (outline_of_read read)
    rw [← Node.map_offset_occurrencesOfAll []]
    exact List.mem_map_of_mem member
  have kept : o ∈ s.collected :=
    List.mem_filter.mpr ⟨member, isCollected_of_no_code member outside⟩
  have listed : o.entry s.text ∈ s.contents.table.toList := by
    rw [toList_table_contents]
    exact List.mem_map_of_mem kept
  obtain ⟨position, found⟩ := List.mem_iff_getElem?.mp listed
  refine ⟨position, by rw [Table.get?_eq, found]; rfl, fun other e found' same => ?_⟩
  -- The table repeats no offset, so that two positions with one offset are the same.
  rw [Table.get?_eq] at found'
  have bound := (List.getElem?_eq_some_iff.mp found').1
  refine (List.getElem?_inj (by simpa using bound) (nodup_offsets_table read)).mp ?_
  rw [List.getElem?_map, List.getElem?_map, found, found', Option.map_some, Option.map_some, same]
  rfl

theorem collected_once_in_namespace :
    ∃ s ∈ Source.read? "a.ts" "namespace A.B \x7b\n export\n declare const enum E { x }\n\x7d",
      ∃ o ∈ s.occurrences, o.decl.name = "E" ∧ o.around = [.module] ∧
        ∃ position, s.contents.table.get? position = some ⟨o.decl, 3⟩ ∧
          ∀ other e, s.contents.table.get? other = some e → e.decl.offset = o.decl.offset →
            other = position := by
  obtain ⟨s, read, o, member, named, around, line⟩ :
      ∃ s ∈ Source.read? "a.ts"
          "namespace A.B \x7b\n export\n declare const enum E { x }\n\x7d",
        ∃ o ∈ s.occurrences, o.decl.name = "E" ∧ o.around = [.module] ∧
          Text.lineAt s.text o.decl.offset = 3 := by
    decide +kernel
  have ⟨_, position, found, unique⟩ := (collected_once read).2 o member (by simp [around])
  rw [line] at found
  exact ⟨s, read, o, member, named, around, position, found, unique⟩

/-- A declaration is collected if and only if nothing but namespaces and accessors encloses it. No
other one is listed, stands for a request without names, or is part of a closure. -/
theorem collected_iff_entered (read : Source.read? path text = some s) :
    (∀ o ∈ s.occurrences, (∃ e ∈ s.contents.table.toList, e.decl.offset = o.decl.offset) ↔
      ∀ e ∈ o.around, e = .module ∨ e = .code .accessor) ∧
    s.listing.declarations = s.collected.map (fun o => (o.entry s.text).listed) ∧
    ∀ externals requested,
      (∀ root ∈ (s.closure externals []).roots, ∃ o ∈ s.collected, o.decl.name = root) ∧
      ∀ d ∈ (s.closure externals requested).declarations,
        ∃ o ∈ s.collected, Contents.entry s.contents.markers (o.entry s.text) = d := by
  refine ⟨fun o member => ?_, ?_, fun externals requested => ⟨?_, ?_⟩⟩
  · rw [← Occurrence.isCollected_iff, toList_table_contents]
    constructor
    · rintro ⟨e, listed, same⟩
      obtain ⟨other, kept, rfl⟩ := List.mem_map.mp listed
      have ⟨member', entered⟩ := List.mem_filter.mp kept
      rwa [occurrence_eq_of_offset read member' member same] at entered
    · intro entered
      exact ⟨o.entry s.text, List.mem_map_of_mem (List.mem_filter.mpr ⟨member, entered⟩), rfl⟩
  · rw [Source.listing, toList_table_contents, List.map_map]
    rfl
  · intro root member
    have exported : root ∈ s.contents.exportedNames := member
    rw [Contents.exportedNames_eq, mem_distinct] at exported
    obtain ⟨e, listed, rfl⟩ := List.mem_map.mp exported
    have listed := (List.mem_filter.mp listed).1
    rw [toList_table_contents] at listed
    obtain ⟨o, kept, rfl⟩ := List.mem_map.mp listed
    exact ⟨o, kept, rfl⟩
  · intro d member
    rw [declarations_closure] at member
    obtain ⟨e, found, rfl⟩ := List.mem_map.mp member
    obtain ⟨position, -, found⟩ := List.mem_filterMap.mp found
    obtain ⟨o, kept, rfl⟩ := exists_collected_of_get? found
    exact ⟨o, kept, rfl⟩

theorem not_collected_in_function :
    ∃ s ∈ Source.read? "a.ts"
        "function f() { interface Local {} } export interface Kept { a: Local }",
      ∃ o ∈ s.occurrences, o.decl.name = "Local" ∧ o.around = [.code .function] ∧
        ¬∃ e ∈ s.contents.table.toList, e.decl.offset = o.decl.offset := by
  obtain ⟨s, read, o, member, named, around⟩ :
      ∃ s ∈ Source.read? "a.ts"
          "function f() { interface Local {} } export interface Kept { a: Local }",
        ∃ o ∈ s.occurrences, o.decl.name = "Local" ∧ o.around = [.code .function] := by
    decide +kernel
  have entered := (collected_iff_entered read).1 o member
  exact ⟨s, read, o, member, named, around, by simp [entered, around]⟩

/-- The body of a getter of an object literal is entered, unlike those of other functions. -/
theorem collected_in_getter :
    ∃ s ∈ Source.read? "a.ts" "const o = { get x() { interface Local {} return 1; } };",
      ∃ o ∈ s.occurrences, o.decl.name = "Local" ∧ o.around = [.code .accessor] ∧
        ∃ e ∈ s.contents.table.toList, e.decl.offset = o.decl.offset := by
  decide +kernel

end Source

end TypeClosure

import TypeClosure.Proofs.DiscoveryOrder
import TypeClosure.Proofs.ModuleExports
import TypeClosure.Proofs.Targets

/-!
The names that a file forwards from other modules. Its text pairs each of them with what the
module calls it, and that is the name which closures look up there.
-/

namespace TypeClosure

/-! ### What a clause pairs -/

namespace ExportSpecifier

/-- An entry of a clause forwards a name, which the module calls by the other one. -/
inductive Forwards : ExportSpecifier → String → String → Prop
  | unchanged {name : String} : Forwards (.named (.identifier name) none) name name
  | renamed {name origin : String} :
      Forwards (.named (.identifier origin) (some (.identifier name))) name origin
  | spelled {name origin : String} :
      Forwards (.named (.string (some origin)) (some (.identifier name))) name origin
  /-- A string without a value counts as the name that it is exported as. -/
  | unspelled {name : String} : Forwards (.named (.string none) (some (.identifier name))) name name

/-- Whether an entry is exported as an identifier. -/
def isForwarded : ExportSpecifier → Bool
  | .named _ (some (.identifier _)) | .named (.identifier _) none => true
  | .named _ (some (.string _)) | .named (.string _) none | .whole => false

theorem forwards_iff {specifier : ExportSpecifier} {name origin : String} :
    specifier.Forwards name origin ↔ specifier.binding? = some ⟨name, origin⟩ := by
  constructor
  · intro forwards
    cases forwards with
    | unchanged | renamed | spelled | unspelled => rfl
  · intro found
    match specifier, found with
    | .named (.identifier _) none, rfl => exact .unchanged
    | .named (.identifier _) (some (.identifier _)), rfl => exact .renamed
    | .named (.string (some _)) (some (.identifier _)), rfl => exact .spelled
    | .named (.string none) (some (.identifier _)), rfl => exact .unspelled

theorem isForwarded_eq (specifier : ExportSpecifier) :
    specifier.isForwarded = specifier.binding?.isSome := by
  match specifier with
  | .named (.identifier _) none | .named (.string _) none => rfl
  | .named (.identifier _) (some (.identifier _)) | .named (.string _) (some (.identifier _)) => rfl
  | .named (.identifier _) (some (.string _)) | .named (.string _) (some (.string _)) => rfl
  | .whole => rfl

end ExportSpecifier

theorem forall₂_forwards_bindings (specifiers : List ExportSpecifier) :
    List.Forall₂ (fun specifier b => specifier.Forwards b.exported b.origin)
      (specifiers.filter ExportSpecifier.isForwarded) (bindings specifiers) := by
  induction specifiers with
  | nil => exact .nil
  | cons specifier rest ih =>
      rw [bindings, List.filterMap_cons, List.filter_cons, specifier.isForwarded_eq]
      cases found : specifier.binding? with
      | none => exact ih
      | some b => exact .cons (ExportSpecifier.forwards_iff.mpr found) ih

theorem Reexport.zip_names_origins (r : Reexport) :
    r.names.zip r.origins = r.bindings.map fun b => (b.exported, b.origin) :=
  List.zip_map' ..

theorem Reexport.length_names (r : Reexport) : r.names.length = r.origins.length := by
  rw [names, origins, List.length_map, List.length_map]

/-! ### What the items of a file forward -/

/-- The clause and the module of an item of a file that forwards names from beside the file. -/
def Node.forwarding? : Node → Option (List ExportSpecifier × String)
  | .reexport specifiers (some source) =>
      if source.toList.head? = some '.' then some (specifiers, source) else none
  | _ => none

/-- The statements of a file, outside all namespaces, that forward names from beside it. -/
def Source.forwardings (s : Source) : List (List ExportSpecifier × String) :=
  s.items.filterMap Node.forwarding?

theorem isRelative_iff {module : String} :
    isRelative module = true ↔ module.toList.head? = some '.' := by
  unfold isRelative
  cases module.toList with
  | nil => simp
  | cons first rest =>
      change ('.' == first && true) = true ↔ some first = some '.'
      rw [Bool.and_true, beq_iff_eq, Option.some_inj]
      exact eq_comm

@[simp] theorem Contents.reexports_mark (c : Contents) (depth : Nat) (name : String) :
    (c.mark depth name).reexports = c.reexports := by
  unfold mark
  split
  · rfl
  · rfl

@[simp] theorem Contents.reexports_markList (c : Contents) (depth : Nat)
    (specifiers : List ExportSpecifier) :
    (c.markList depth specifiers).reexports = c.reexports := by
  rw [markList_eq_foldl]
  induction specifiers.filterMap ExportSpecifier.ownName? generalizing c with
  | nil => rfl
  | cons name rest ih => rw [List.foldl_cons, ih, reexports_mark]

theorem Node.forwarding?_of_statement {n : Node} (statement : n.IsStatement) :
    n.forwarding? = none := by
  cases statement with
  | type | value | module | statement | code => rfl

theorem Node.reexports_addTo {text : List Char} {n : Node} (item : n.IsItem) :
    (n.addTo text 0 {}).reexports =
      (n.forwarding?.map fun (specifiers, source) => ⟨source, bindings specifiers⟩).toList := by
  cases item with
  | statement statement =>
      rw [(n.sameExports_addTo text 0 {} fun _ => statement).reexports,
        Node.forwarding?_of_statement statement]
      rfl
  | @exported n statement =>
      rw [Node.addTo, (n.sameExports_addTo text 0 _ fun _ => statement).reexports]
      cases statement with
      | type | value | module | statement | code => rfl
  | exportedDefault => rfl
  | exportList => exact Contents.reexports_markList _ _ _
  | @reexport specifiers source =>
      cases source with
      | none => rfl
      | some source =>
          by_cases beside : source.toList.head? = some '.'
          · simp [Node.addTo, Contents.forward, Node.forwarding?, isRelative_iff, beside]
          · simp [Node.addTo, Contents.forward, Node.forwarding?, isRelative_iff, beside]

theorem Node.reexports_addAllTo {text : List Char} {items : List Node}
    (all : ∀ n ∈ items, n.IsItem) :
    (Node.addAllTo text 0 {} items).reexports =
      (items.filterMap Node.forwarding?).map fun (specifiers, source) =>
        ⟨source, bindings specifiers⟩ := by
  induction items with
  | nil => rfl
  | cons n rest ih =>
      obtain ⟨item, others⟩ := List.forall_mem_cons.mp all
      rw [Node.addAllTo, (Node.joins_addAllTo text 0 _ rest).reexports, Node.reexports_addTo item,
        ih others, List.filterMap_cons]
      cases n.forwarding? with
      | none => rfl
      | some clause => rfl

namespace Source

variable {path code : String} {s : Source}

theorem reexports_contents (read : Source.read? path code = some s) :
    s.contents.reexports = s.forwardings.map fun (specifiers, source) =>
      ⟨source, bindings specifiers⟩ :=
  Node.reexports_addAllTo (isItem_of_read read)

/-- The statements that are collected are those of the file's own items that name a module by its
place beside the file, in the order of the text. Each pairs the names that it forwards with what
the module calls them, one pair for each entry of its clause that is exported as an identifier. -/
theorem reexports_as_written (read : Source.read? path code = some s) :
    List.Forall₂ (fun clause r => r.module = clause.2 ∧
        r.names.length = r.origins.length ∧
        List.Forall₂ (fun specifier pair => specifier.Forwards pair.1 pair.2)
          (clause.1.filter ExportSpecifier.isForwarded) (r.names.zip r.origins) ∧
        r.names = forwardedNames clause.1)
      s.forwardings s.contents.reexports := by
  rw [reexports_contents read, List.forall₂_map_right_iff, List.forall₂_same]
  intro clause _
  refine ⟨rfl, Reexport.length_names _, ?_, rfl⟩
  rw [Reexport.zip_names_origins, List.forall₂_map_right_iff]
  exact forall₂_forwards_bindings clause.1

theorem reexports_as_written_mixed :
    ∃ s ∈ Source.read? "a.ts"
        ("export \x7b A as B, \"x-y\" as C, D as \"z\", default as E \x7d from './m';" ++
          " namespace N \x7b export { F } from './n' \x7d export { G } from 'lib';" ++
          " export * as all from './w'; export * from './v';"),
      s.contents.reexports = [⟨"./m", [⟨"B", "A"⟩, ⟨"C", "x-y"⟩, ⟨"E", "default"⟩]⟩, ⟨"./w", []⟩] ∧
      List.Forall₂ (fun clause r => r.names = forwardedNames clause.1)
        s.forwardings s.contents.reexports := by
  obtain ⟨s, read, collected⟩ :
      ∃ s ∈ Source.read? "a.ts"
          ("export \x7b A as B, \"x-y\" as C, D as \"z\", default as E \x7d from './m';" ++
            " namespace N \x7b export { F } from './n' \x7d export { G } from 'lib';" ++
            " export * as all from './w'; export * from './v';"),
        s.contents.reexports =
          [⟨"./m", [⟨"B", "A"⟩, ⟨"C", "x-y"⟩, ⟨"E", "default"⟩]⟩, ⟨"./w", []⟩] := by
    decide +kernel
  exact ⟨s, read, collected, (reexports_as_written read).imp fun _ _ written => written.2.2.2⟩

end Source

/-! ### What closures take from statements -/

theorem Reexport.find?_of_mem_names {r : Reexport} {name : String} (named : name ∈ r.names) :
    ∃ b, r.bindings.find? (·.exported == name) = some b ∧ b.exported = name ∧
      r.originOf name = b.origin := by
  cases found : r.bindings.find? (·.exported == name) with
  | none =>
      obtain ⟨b, member, rfl⟩ := List.mem_map.mp named
      exact absurd (beq_self_eq_true b.exported) (List.find?_eq_none.mp found b member)
  | some b =>
      have same : b.exported = name := by simpa using List.find?_some found
      exact ⟨b, rfl, same, by rw [originOf, found]⟩

/-- The first pair of a name is the one that counts. -/
theorem Reexport.exists_first_pair {r : Reexport} {name : String} (named : name ∈ r.names) :
    ∃ i : Nat, r.names[i]? = some name ∧ r.origins[i]? = some (r.originOf name) ∧
      ∀ j < i, r.names[j]? ≠ some name := by
  obtain ⟨b, found, same, origin⟩ := r.find?_of_mem_names named
  obtain ⟨-, i, bound, rfl, before⟩ := List.find?_eq_some_iff_getElem.mp found
  have pair : r.bindings[i]? = some r.bindings[i] := List.getElem?_eq_getElem bound
  refine ⟨i, ?_, ?_, fun j less earlier => ?_⟩
  · rw [names, List.getElem?_map, pair, Option.map_some, same]
  · rw [origins, List.getElem?_map, pair, Option.map_some, origin]
  · have apart := before j less
    rw [names, List.getElem?_map, List.getElem?_eq_getElem (Nat.lt_trans less bound),
      Option.map_some, Option.some_inj] at earlier
    simp [earlier] at apart

/-- Among the entries of a clause, the first one that forwards a name pairs it with the other. -/
def FirstToForward (specifiers : List ExportSpecifier) (name origin : String) : Prop :=
  ∃ before specifier after, specifiers = before ++ specifier :: after ∧
    specifier.Forwards name origin ∧ ∀ other ∈ before, ∀ own, ¬other.Forwards name own

theorem firstToForward_originOf {specifiers : List ExportSpecifier} {source name : String}
    (named : name ∈ (Reexport.mk source (bindings specifiers)).names) :
    FirstToForward specifiers name
      ((Reexport.mk source (bindings specifiers)).originOf name) := by
  obtain ⟨b, found, rfl, origin⟩ := Reexport.find?_of_mem_names named
  rw [bindings, List.find?_filterMap, Option.bind_eq_some_iff] at found
  obtain ⟨specifier, first, bound⟩ := found
  obtain ⟨-, before, after, split, apart⟩ := List.find?_eq_some_iff_append.mp first
  refine ⟨before, specifier, after, split, ?_, fun other earlier own forwards => ?_⟩
  · rw [ExportSpecifier.forwards_iff, bound, origin]
  · have none := apart other earlier
    rw [ExportSpecifier.forwards_iff.mp forwards] at none
    simp at none

/-- Those of the values at the positions of a list that are kept, by the positions. -/
theorem exists_positions_filter_mapIdx {α β : Type} (kept : β → Bool) (value : Nat → α → β)
    (list : List α) :
    ∃ positions : List Nat, positions.Pairwise (· < ·) ∧
      List.Forall₂ (fun position b => ∃ a, list[position]? = some a ∧ b = value position a ∧
        kept b = true) positions ((list.mapIdx value).filter kept) := by
  induction list generalizing value with
  | nil => exact ⟨[], .nil, .nil⟩
  | cons a rest ih =>
      obtain ⟨positions, ordered, values⟩ := ih fun position => value (position + 1)
      have shifted : (positions.map (· + 1)).Pairwise (· < ·) :=
        List.pairwise_map.mpr (ordered.imp Nat.succ_lt_succ)
      rw [List.mapIdx_cons, List.filter_cons]
      split
      · next here =>
          refine ⟨0 :: positions.map (· + 1), List.pairwise_cons.mpr ⟨?_, shifted⟩, ?_⟩
          · intro position member
            obtain ⟨_, _, rfl⟩ := List.mem_map.mp member
            exact Nat.succ_pos _
          · exact .cons ⟨a, rfl, rfl, here⟩ (List.forall₂_map_left_iff.mpr values)
      · exact ⟨positions.map (· + 1), shifted, List.forall₂_map_left_iff.mpr values⟩

/-- A closure takes some names from the statement at a position of a file. -/
structure Source.TakesFrom (s : Source) (position : Nat) (statement r : Reexport) : Prop where
  stated : s.contents.reexports[position]? = some statement
  module : r.module = statement.module
  needed : r.names ≠ []
  paired : r.names.length = r.origins.length
  pairs : ∀ pair ∈ r.names.zip r.origins, ∃ i : Nat, statement.names[i]? = some pair.1 ∧
    statement.origins[i]? = some pair.2 ∧ ∀ j < i, statement.names[j]? ≠ some pair.1
  written : ∃ clause, s.forwardings[position]? = some clause ∧ clause.2 = r.module ∧
    ∀ pair ∈ r.names.zip r.origins, FirstToForward clause.1 pair.1 pair.2
  first : ∀ name ∈ r.names, s.contents.reexportOf? name = some position ∧
    ∀ earlier < position, ∀ other, s.contents.reexports[earlier]? = some other →
      name ∉ other.names
  originOf : ∀ name ∈ r.names, r.originOf name = statement.originOf name

namespace Source

variable {path code : String} {s : Source} {externals : List Glob.Pattern}
  {requested : List String}

theorem reexports_closure :
    (s.closure externals requested).reexports =
      (s.contents.reexports.mapIdx fun position r => r.restrictTo
        (s.namesForwardedBy externals (s.contents.rootsFor requested) position)).filter
        (!·.names.isEmpty) := by
  change s.contents.neededReexports
    (s.contents.worklist externals (s.contents.rootsFor requested)).forwarded = _
  rw [worklist_faithful.forwarded_eq]
  exact neededReexports_mapIdx s.contents _

theorem takesFrom_restrictTo (read : Source.read? path code = some s) {roots : List String}
    {position : Nat} {statement : Reexport}
    (stated : s.contents.reexports[position]? = some statement)
    (needed : s.namesForwardedBy externals roots position ≠ []) :
    s.TakesFrom position statement
      (statement.restrictTo (s.namesForwardedBy externals roots position)) := by
  have first {name : String} (taken : name ∈ s.namesForwardedBy externals roots position) :
      s.contents.reexportOf? name = some position :=
    (standing_eq_forwarded.mp (mem_namesForwardedBy.mp taken).2).2.2
  have named {name : String} (taken : name ∈ s.namesForwardedBy externals roots position) :
      name ∈ statement.names := Contents.mem_names_of_reexportOf? (first taken) stated
  have pairs {pair : String × String} (member : pair ∈
      (statement.restrictTo (s.namesForwardedBy externals roots position)).names.zip
        (statement.restrictTo (s.namesForwardedBy externals roots position)).origins) :
      ∃ name ∈ s.namesForwardedBy externals roots position,
        pair = (name, statement.originOf name) := by
    rw [Reexport.zip_names_origins, Reexport.restrictTo, List.map_map] at member
    obtain ⟨name, taken, rfl⟩ := List.mem_map.mp member
    exact ⟨name, taken, rfl⟩
  refine ⟨stated, rfl, ?_, Reexport.length_names _, ?_, ?_, ?_, ?_⟩
  · rwa [Reexport.names_restrictTo]
  · intro pair member
    obtain ⟨name, taken, rfl⟩ := pairs member
    exact Reexport.exists_first_pair (named taken)
  · rw [reexports_contents read, List.getElem?_map, Option.map_eq_some_iff] at stated
    obtain ⟨clause, here, rfl⟩ := stated
    refine ⟨clause, here, rfl, fun pair member => ?_⟩
    obtain ⟨name, taken, rfl⟩ := pairs member
    exact firstToForward_originOf (named taken)
  · intro name taken
    rw [Reexport.names_restrictTo] at taken
    refine ⟨first taken, fun earlier less other there forwarded => ?_⟩
    obtain ⟨_, _, before⟩ := List.findIdx?_eq_some_iff_getElem.mp (first taken)
    obtain ⟨_, rfl⟩ := List.getElem?_eq_some_iff.mp there
    exact before earlier less (List.contains_iff_mem.mpr forwarded)
  · intro name taken
    rw [Reexport.names_restrictTo] at taken
    exact originOf_restrictTo taken

/-- Each statement of a closure is one of the file's, in the order of the text, with some of its
names. Each of these is paired as the first entry for it in that statement pairs it, and no
statement before it forwards the name. The names that are looked up in the files of the modules are
the origins of these pairs. -/
theorem taken_as_written (read : Source.read? path code = some s)
    (externals : List Glob.Pattern) (requested : List String) :
    (∃ positions : List Nat, positions.Pairwise (· < ·) ∧
      List.Forall₂ (fun position r => ∃ statement, s.TakesFrom position statement r)
        positions (s.closure externals requested).reexports) ∧
    ∀ (t : FileTree) (extensions : List String) (importing file origin : String),
      Asks (t.targets extensions (s.closure externals requested) importing) file origin ↔
        ∃ r ∈ (s.closure externals requested).reexports,
          t.moduleFile? extensions importing r.module = some file ∧ origin ∈ r.origins := by
  constructor
  · obtain ⟨positions, ordered, taken⟩ := exists_positions_filter_mapIdx (!·.names.isEmpty)
      (fun position r => r.restrictTo
        (s.namesForwardedBy externals (s.contents.rootsFor requested) position))
      s.contents.reexports
    refine ⟨positions, ordered, ?_⟩
    rw [reexports_closure]
    refine taken.imp fun position r ⟨statement, stated, same, needed⟩ => ⟨statement, ?_⟩
    rw [same] at needed ⊢
    exact takesFrom_restrictTo read stated (by simpa using needed)
  · intro t extensions importing file origin
    rw [FileTree.asks_targets]
    refine exists_congr fun r => and_congr_right fun needed => ?_
    have origins : r.names.map r.originOf = r.origins := by
      obtain ⟨position, statement, _, _, rfl⟩ := mem_reexports_closure.mp needed
      rw [Reexport.names_restrictTo, Reexport.origins_restrictTo]
      exact List.map_congr_left fun name taken => originOf_restrictTo taken
    rw [← origins, List.mem_map]
    constructor
    · rintro ⟨name, named, found, same⟩
      exact ⟨found, name, named, same⟩
    · rintro ⟨found, name, named, same⟩
      exact ⟨name, named, found, same⟩

theorem taken_as_written_twice :
    ∃ s ∈ Source.read? "a.ts"
        ("export { A as B, C as B, D } from './m'; export { B, E } from './n';" ++
          " export interface R { e: E; b: B; d: D }"),
      (s.closure [] ["R"]).reexports = [⟨"./m", [⟨"B", "A"⟩, ⟨"D", "D"⟩]⟩, ⟨"./n", [⟨"E", "E"⟩]⟩] ∧
      ∃ position statement, s.TakesFrom position statement ⟨"./m", [⟨"B", "A"⟩, ⟨"D", "D"⟩]⟩ := by
  obtain ⟨s, read, closed⟩ :
      ∃ s ∈ Source.read? "a.ts"
          ("export { A as B, C as B, D } from './m'; export { B, E } from './n';" ++
            " export interface R { e: E; b: B; d: D }"),
        (s.closure [] ["R"]).reexports =
          [⟨"./m", [⟨"B", "A"⟩, ⟨"D", "D"⟩]⟩, ⟨"./n", [⟨"E", "E"⟩]⟩] := by
    decide +kernel
  obtain ⟨⟨positions, _, taken⟩, _⟩ := taken_as_written read [] ["R"]
  rw [closed] at taken
  cases taken with
  | cons first _ => exact ⟨s, read, closed, _, first⟩

end Source

end TypeClosure

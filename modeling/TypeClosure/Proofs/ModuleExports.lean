import TypeClosure.Proofs.Collection
import TypeClosure.Proofs.Extraction
import TypeClosure.Proofs.Grammar.ExportPlaces
import TypeClosure.Proofs.LocalTypes

/-!
What a file exports under which names. A file is collected in one walk that counts the namespaces
it is in. Only items of the file itself are exported, and what a node adds depends on nothing but
the depth at which it stands.
-/

namespace TypeClosure

variable {text : List Char} {depth : Nat}

/-! ### Export lists -/

/-- What the file itself calls a name of an export list. -/
def ExportSpecifier.ownName? : ExportSpecifier → Option String
  | .named (.identifier name) _ => some name
  | .named (.string _) _ | .whole => none

theorem ExportSpecifier.mem_filterMap_ownName? {specifiers : List ExportSpecifier}
    {name : String} :
    name ∈ specifiers.filterMap ownName? ↔
      ∃ newName, .named (.identifier name) newName ∈ specifiers := by
  rw [List.mem_filterMap]
  constructor
  · rintro ⟨specifier, member, own⟩
    match specifier, own with
    | .named (.identifier _) newName, rfl => exact ⟨newName, member⟩
  · rintro ⟨newName, member⟩
    exact ⟨_, member, rfl⟩

theorem Contents.markList_eq_foldl (c : Contents) (specifiers : List ExportSpecifier) :
    c.markList depth specifiers =
      (specifiers.filterMap ExportSpecifier.ownName?).foldl (mark depth) c := by
  rw [List.foldl_filterMap, markList]
  congr 1
  funext c specifier
  match specifier with
  | .named (.identifier _) _ | .named (.string _) _ | .whole => rfl

/-! ### Putting contents together -/

namespace Contents

/-- `both` holds what `first` holds and, behind that, what `second` holds. -/
structure Joins (first second both : Contents) : Prop where
  table : both.table.toList = first.table.toList ++ second.table.toList
  reexports : both.reexports = first.reexports ++ second.reexports
  isExported : ∀ name, both.markers.isExported name =
    (first.markers.isExported name || second.markers.isExported name)

theorem joins_empty (c : Contents) : Joins c {} c where
  table := (List.append_nil _).symm
  reexports := (List.append_nil _).symm
  isExported := fun _ => (Bool.or_false _).symm

/-- What one step adds and what the next one adds come to what both add. -/
theorem Joins.trans {c c' c'' a b both : Contents} (first : Joins c a c') (second : Joins c' b c'')
    (together : Joins a b both) : Joins c both c'' where
  table := by rw [second.table, first.table, together.table, List.append_assoc]
  reexports := by rw [second.reexports, first.reexports, together.reexports, List.append_assoc]
  isExported := fun name => by
    rw [second.isExported, first.isExported, together.isExported, Bool.or_assoc]

theorem joins_declare (c : Contents) (d : TypeDecl) :
    Joins c (declare text {} d) (c.declare text d) where
  table := Table.toList_insert _ _
  reexports := (List.append_nil _).symm
  isExported := fun _ => (Bool.or_false _).symm

theorem joins_mark (c : Contents) (name : String) :
    Joins c (mark depth {} name) (c.mark depth name) := by
  unfold mark
  split
  · refine ⟨(List.append_nil _).symm, (List.append_nil _).symm, fun other => ?_⟩
    rw [Bool.eq_iff_iff, Bool.or_eq_true, Markers.isExported_markExported,
      Markers.isExported_markExported]
    simp [Markers.isExported, or_comm]
  · exact joins_empty c

theorem joins_markList (c : Contents) (specifiers : List ExportSpecifier) :
    Joins c (markList depth {} specifiers) (c.markList depth specifiers) := by
  rw [markList_eq_foldl, markList_eq_foldl]
  induction specifiers.filterMap ExportSpecifier.ownName? generalizing c with
  | nil => exact joins_empty c
  | cons name rest ih => exact (joins_mark c name).trans (ih _) (ih _)

theorem joins_forward (c : Contents) (specifiers : List ExportSpecifier) (source : Option String) :
    Joins c (forward depth {} specifiers source) (c.forward depth specifiers source) := by
  unfold forward
  split
  · split
    · exact ⟨(List.append_nil _).symm, rfl, fun _ => (Bool.or_false _).symm⟩
    · exact joins_empty c
  · exact joins_empty c

theorem joins_markTo (c : Contents) (n : Node) :
    Joins c (n.markTo depth {}) (n.markTo depth c) := by
  cases n with
  | type d _ => exact joins_mark c d.name
  | _ => exact joins_empty c

end Contents

section

open Contents

variable (text)

mutual
theorem Node.joins_addTo (depth : Nat) (c : Contents) (n : Node) :
    Joins c (n.addTo text depth {}) (n.addTo text depth c) := by
  cases n with
  | type d _ => exact joins_declare c d
  | value parts => exact Node.joins_addAllTo depth c parts
  | statement parts => exact Node.joins_addAllTo depth c parts
  | module items => exact Node.joins_addAllTo (depth + 1) c items
  | code code => exact code.joins_addTo depth c
  | exported n => exact (joins_markTo c n).trans (n.joins_addTo depth _) (n.joins_addTo depth _)
  | exportedDefault d _ =>
      exact (joins_mark c d.name).trans (joins_declare _ d) (joins_declare _ d)
  | exportList specifiers => exact joins_markList c specifiers
  | reexport specifiers source => exact joins_forward c specifiers source

theorem LocalCode.joins_addTo (depth : Nat) (c : Contents) (code : LocalCode) :
    Joins c (code.addTo text depth {}) (code.addTo text depth c) := by
  cases code with
  | mk scope parts =>
      cases scope with
      | accessor => exact Node.joins_addAllTo depth c parts
      | function => exact joins_empty c
      | arrow => exact joins_empty c
      | classBody => exact joins_empty c

theorem Node.joins_addAllTo (depth : Nat) (c : Contents) (ns : List Node) :
    Joins c (Node.addAllTo text depth {} ns) (Node.addAllTo text depth c ns) := by
  cases ns with
  | nil => exact joins_empty c
  | cons n ns =>
      exact (n.joins_addTo depth c).trans (Node.joins_addAllTo depth _ ns)
        (Node.joins_addAllTo depth _ ns)
end

end

/-! ### One walk that counts namespaces -/

/-- How many namespaces a walk is in, and what it has collected. -/
structure Walk where
  depth : Nat := 0
  contents : Contents := {}

mutual
/-- Collects what a node holds. The body of a namespace is walked one namespace deeper. -/
def Node.walk (text : List Char) (w : Walk) : Node → Walk
  | .type d _ => { w with contents := w.contents.declare text d }
  | .value parts | .statement parts => Node.walkAll text w parts
  | .module items =>
      let inside := Node.walkAll text { w with depth := w.depth + 1 } items
      { inside with depth := inside.depth - 1 }
  | .code code => code.walk text w
  | .exported n => n.walk text { w with contents := n.markTo w.depth w.contents }
  | .exportedDefault d _ =>
      { w with contents := (w.contents.mark w.depth d.name).declare text d }
  | .exportList specifiers => { w with contents := w.contents.markList w.depth specifiers }
  | .reexport specifiers source =>
      { w with contents := w.contents.forward w.depth specifiers source }

def LocalCode.walk (text : List Char) (w : Walk) : LocalCode → Walk
  | .mk .accessor parts => Node.walkAll text w parts
  | .mk .function _ | .mk .arrow _ | .mk .classBody _ => w

def Node.walkAll (text : List Char) (w : Walk) : List Node → Walk
  | [] => w
  | n :: ns => Node.walkAll text (n.walk text w) ns
end

section

variable (text)

mutual
/-- Behind a node the walk is as deep as in front of it. -/
theorem Node.walk_eq (w : Walk) (n : Node) :
    n.walk text w = ⟨w.depth, n.addTo text w.depth w.contents⟩ := by
  cases n with
  | type d _ => rfl
  | value parts => exact Node.walkAll_eq w parts
  | statement parts => exact Node.walkAll_eq w parts
  | module items =>
      rw [Node.walk, Node.walkAll_eq _ items, Nat.add_sub_cancel]
      rfl
  | code code => exact code.walk_eq w
  | exported n => exact n.walk_eq _
  | exportedDefault d _ => rfl
  | exportList specifiers => rfl
  | reexport specifiers source => rfl

theorem LocalCode.walk_eq (w : Walk) (code : LocalCode) :
    code.walk text w = ⟨w.depth, code.addTo text w.depth w.contents⟩ := by
  cases code with
  | mk scope parts =>
      cases scope with
      | accessor => exact Node.walkAll_eq w parts
      | function => rfl
      | arrow => rfl
      | classBody => rfl

theorem Node.walkAll_eq (w : Walk) (ns : List Node) :
    Node.walkAll text w ns = ⟨w.depth, Node.addAllTo text w.depth w.contents ns⟩ := by
  cases ns with
  | nil => rfl
  | cons n ns =>
      rw [Node.walkAll, n.walk_eq w, Node.walkAll_eq _ ns]
      rfl
end

end

/-! ### What exports nothing -/

/-- Nothing has been marked or forwarded between `c` and `c'`. -/
structure Contents.SameExports (c c' : Contents) : Prop where
  markers : c'.markers = c.markers
  reexports : c'.reexports = c.reexports

namespace Contents

theorem sameExports_refl (c : Contents) : SameExports c c := ⟨rfl, rfl⟩

theorem SameExports.trans {c c' c'' : Contents} (first : SameExports c c')
    (second : SameExports c' c'') : SameExports c c'' :=
  ⟨second.markers.trans first.markers, second.reexports.trans first.reexports⟩

theorem mark_inside (inside : depth ≠ 0) (c : Contents) (name : String) :
    c.mark depth name = c := if_neg inside

theorem markList_inside (inside : depth ≠ 0) (c : Contents) (specifiers : List ExportSpecifier) :
    c.markList depth specifiers = c := by
  rw [markList_eq_foldl]
  induction specifiers.filterMap ExportSpecifier.ownName? with
  | nil => rfl
  | cons name rest ih => rwa [List.foldl_cons, mark_inside inside]

theorem forward_inside (inside : depth ≠ 0) (c : Contents) (specifiers : List ExportSpecifier)
    (source : Option String) : c.forward depth specifiers source = c := by
  unfold forward
  split
  · exact if_neg fun ⟨outside, _⟩ => inside outside
  · rfl

theorem markTo_inside (inside : depth ≠ 0) (c : Contents) (n : Node) : n.markTo depth c = c := by
  cases n with
  | type d _ => exact mark_inside inside c d.name
  | _ => rfl

end Contents

section

open Contents

variable (text)

mutual
/-- Inside a namespace nothing is exported, and outside no statement exports anything. -/
theorem Node.sameExports_addTo (depth : Nat) (c : Contents) (n : Node)
    (statement : depth = 0 → n.IsStatement) : SameExports c (n.addTo text depth c) := by
  cases n with
  | type d _ => exact ⟨rfl, rfl⟩
  | value parts =>
      refine Node.sameExports_addAllTo depth c parts fun outside => ?_
      cases statement outside with
      | value all => exact all
  | statement parts =>
      refine Node.sameExports_addAllTo depth c parts fun outside => ?_
      cases statement outside with
      | statement all => exact all
  | module items =>
      exact Node.sameExports_addAllTo (depth + 1) c items fun outside =>
        absurd outside (Nat.succ_ne_zero depth)
  | code code =>
      refine code.sameExports_addTo depth c fun outside => ?_
      cases statement outside with
      | code held => exact held
  | exported n =>
      have inside : depth ≠ 0 := fun outside => nomatch statement outside
      rw [Node.addTo, markTo_inside inside]
      exact n.sameExports_addTo depth c fun outside => absurd outside inside
  | exportedDefault d _ =>
      have inside : depth ≠ 0 := fun outside => nomatch statement outside
      rw [Node.addTo, mark_inside inside]
      exact ⟨rfl, rfl⟩
  | exportList specifiers =>
      have inside : depth ≠ 0 := fun outside => nomatch statement outside
      rw [Node.addTo, markList_inside inside]
      exact sameExports_refl c
  | reexport specifiers source =>
      have inside : depth ≠ 0 := fun outside => nomatch statement outside
      rw [Node.addTo, forward_inside inside]
      exact sameExports_refl c

theorem LocalCode.sameExports_addTo (depth : Nat) (c : Contents) (code : LocalCode)
    (statements : depth = 0 → code.HoldsStatements) :
    SameExports c (code.addTo text depth c) := by
  cases code with
  | mk scope parts =>
      cases scope with
      | accessor =>
          refine Node.sameExports_addAllTo depth c parts fun outside => ?_
          cases statements outside with
          | mk all => exact all
      | function => exact sameExports_refl c
      | arrow => exact sameExports_refl c
      | classBody => exact sameExports_refl c

theorem Node.sameExports_addAllTo (depth : Nat) (c : Contents) (ns : List Node)
    (statements : depth = 0 → ∀ n ∈ ns, n.IsStatement) :
    SameExports c (Node.addAllTo text depth c ns) := by
  cases ns with
  | nil => exact sameExports_refl c
  | cons n ns =>
      have first := n.sameExports_addTo depth c fun outside =>
        statements outside n List.mem_cons_self
      exact first.trans (Node.sameExports_addAllTo depth _ ns fun outside n member =>
        statements outside n (List.mem_cons_of_mem _ member))
end

end

/-! ### What the items of a file export -/

/-- Whether an item of a file exports declarations of a name. -/
def Node.ExportsName (name : String) : Node → Prop
  | .exported (.type d _) | .exportedDefault d _ => d.name = name
  | .exportList specifiers => ∃ newName, .named (.identifier name) newName ∈ specifiers
  | _ => False

/-- Whether an item of a file, outside all namespaces, exports declarations of a name. -/
def Source.ExportsName (s : Source) (name : String) : Prop := ∃ n ∈ s.items, n.ExportsName name

theorem Contents.isExported_mark {c : Contents} {name other : String} :
    (c.mark 0 name).markers.isExported other = true ↔
      other = name ∨ c.markers.isExported other = true :=
  Markers.isExported_markExported _ _ _

theorem Contents.isExported_markList {c : Contents} {specifiers : List ExportSpecifier}
    {name : String} :
    (c.markList 0 specifiers).markers.isExported name = true ↔
      (∃ newName, .named (.identifier name) newName ∈ specifiers) ∨
        c.markers.isExported name = true := by
  rw [markList_eq_foldl, ← ExportSpecifier.mem_filterMap_ownName?]
  induction specifiers.filterMap ExportSpecifier.ownName? generalizing c with
  | nil => simp
  | cons first rest ih =>
      rw [List.foldl_cons, ih, isExported_mark, List.mem_cons]
      exact or_left_comm.trans or_assoc.symm

theorem Contents.markers_forward (c : Contents) (depth : Nat) (specifiers : List ExportSpecifier)
    (source : Option String) : (c.forward depth specifiers source).markers = c.markers := by
  unfold forward
  split
  · split
    · rfl
    · rfl
  · rfl

theorem Node.not_exportsName {n : Node} (statement : n.IsStatement) (name : String) :
    ¬n.ExportsName name := by
  cases statement with
  | type | value | module | statement | code => exact id

/-- The step: an item marks the names that it exports, and no others. -/
theorem Node.isExported_addTo {n : Node} (item : n.IsItem) {name : String} :
    (n.addTo text 0 {}).markers.isExported name = true ↔ n.ExportsName name := by
  have unmarked : ({} : Contents).markers.isExported name ≠ true := Bool.false_ne_true
  cases item with
  | statement statement =>
      rw [(n.sameExports_addTo text 0 {} fun _ => statement).markers]
      exact iff_of_false unmarked (Node.not_exportsName statement name)
  | @exported n statement =>
      rw [Node.addTo, (n.sameExports_addTo text 0 _ fun _ => statement).markers]
      cases statement with
      | type =>
          rw [Node.markTo, Contents.isExported_mark, or_iff_left unmarked]
          exact eq_comm
      | value | module | statement | code => exact iff_of_false unmarked id
  | @exportedDefault d _ _ =>
      have marked : (Contents.mark 0 {} d.name).markers.isExported name = true ↔ d.name = name := by
        rw [Contents.isExported_mark, or_iff_left unmarked]
        exact eq_comm
      exact marked
  | exportList =>
      rw [Node.addTo, Contents.isExported_markList, or_iff_left unmarked]
      exact Iff.rfl
  | @reexport specifiers source =>
      rw [Node.addTo, Contents.markers_forward]
      exact iff_of_false unmarked id

/-- The run: items mark the names that one of them exports. -/
theorem Node.isExported_addAllTo {items : List Node} (all : ∀ n ∈ items, n.IsItem)
    {name : String} :
    (Node.addAllTo text 0 {} items).markers.isExported name = true ↔
      ∃ n ∈ items, n.ExportsName name := by
  induction items with
  | nil => simp [Node.addAllTo, Markers.isExported]
  | cons n rest ih =>
      obtain ⟨item, others⟩ := List.forall_mem_cons.mp all
      rw [Node.addAllTo, (Node.joins_addAllTo text 0 _ rest).isExported, Bool.or_eq_true,
        Node.isExported_addTo item, ih others, List.exists_mem_cons_iff]

/-! ### Exported names -/

theorem pairwise_idxOf_eraseDups (names : List String) (kept : String → Bool) :
    (names.filter kept).eraseDups.Pairwise fun a b => names.idxOf a < names.idxOf b := by
  induction names generalizing kept with
  | nil => exact .nil
  | cons first rest ih =>
      -- Behind the first name, the other ones keep their order.
      have shifted {others : List String} (apart : ∀ a ∈ others, first ≠ a)
          (ordered : others.Pairwise fun a b => rest.idxOf a < rest.idxOf b) :
          others.Pairwise fun a b => (first :: rest).idxOf a < (first :: rest).idxOf b := by
        refine ordered.imp_of_mem fun {a b} member member' before => ?_
        rw [List.idxOf_cons_ne _ (apart a member), List.idxOf_cons_ne _ (apart b member')]
        exact Nat.succ_lt_succ before
      rw [List.filter_cons]
      split
      · rw [List.eraseDups_cons, List.filter_filter]
        have apart : ∀ a ∈ (rest.filter fun b => !b == first && kept b).eraseDups, first ≠ a := by
          intro a member same
          simp [List.mem_eraseDups, same] at member
        refine List.pairwise_cons.mpr ⟨fun a member => ?_, shifted apart (ih _)⟩
        rw [List.idxOf_cons_self, List.idxOf_cons_ne _ (apart a member)]
        exact Nat.succ_pos _
      · next dropped =>
          refine shifted (fun a member same => dropped ?_) (ih kept)
          rw [same]
          exact (List.mem_filter.mp (List.mem_eraseDups.mp member)).2

namespace Table

/-- The first declaration of a name stands in front of those of another one. -/
def StandsBefore (t : Table) (name other : String) : Prop :=
  ∃ position ∈ (t.positions name).head?, ∃ later ∈ (t.positions other).head?, position < later

theorem head?_positions (t : Table) (name : String) :
    (t.positions name).head? = (t.toList.map TableEntry.name).idxOf? name := by
  have from_place (entries : List TableEntry) (k : Nat) :
      ((entries.zipIdx k).filterMap fun place =>
        if place.1.name = name then some place.2 else none).head? =
        ((entries.map TableEntry.name).idxOf? name).map (k + ·) := by
    induction entries generalizing k with
    | nil => rfl
    | cons e rest ih =>
        rw [List.zipIdx_cons, List.filterMap_cons, List.map_cons, List.idxOf?_cons]
        by_cases same : e.name = name
        · simp [same]
        · simp [same, ih, Function.comp_def, Nat.add_assoc, Nat.add_comm 1]
  rw [positions_eq]
  refine (from_place t.toList 0).trans ?_
  simp

end Table

theorem Contents.mem_exportedNames {c : Contents} {name : String} :
    name ∈ c.exportedNames ↔
      c.markers.isExported name = true ∧ c.table.positions name ≠ [] := by
  rw [exportedNames_eq, mem_distinct, Ne, Table.positions_eq_nil]
  simp only [List.mem_map, List.mem_filter]
  constructor
  · rintro ⟨e, ⟨listed, exported⟩, rfl⟩
    exact ⟨exported, fun none => none e listed rfl⟩
  · rintro ⟨exported, declared⟩
    push Not at declared
    obtain ⟨e, listed, rfl⟩ := declared
    exact ⟨e, ⟨listed, exported⟩, rfl⟩

theorem Contents.pairwise_exportedNames (c : Contents) :
    c.exportedNames.Pairwise c.table.StandsBefore := by
  have ordered : c.exportedNames.Pairwise fun a b =>
      (c.table.toList.map TableEntry.name).idxOf a <
        (c.table.toList.map TableEntry.name).idxOf b := by
    have names : (c.table.toList.filter (c.markers.isExported ·.name)).map TableEntry.name =
        (c.table.toList.map TableEntry.name).filter c.markers.isExported := by
      rw [List.filter_map]
      rfl
    rw [exportedNames_eq, distinct_eq_eraseDups, names]
    exact pairwise_idxOf_eraseDups _ _
  have first {name : String} (member : name ∈ c.exportedNames) :
      (c.table.toList.map TableEntry.name).idxOf name ∈ (c.table.positions name).head? := by
    have declared : name ∈ c.table.toList.map TableEntry.name := by
      rw [exportedNames_eq, mem_distinct] at member
      exact (List.filter_sublist.map _).subset member
    rw [Table.head?_positions]
    exact List.findIdx?_eq_some_of_exists ⟨name, declared, beq_self_eq_true name⟩
  refine ordered.imp_of_mem fun member member' before => ?_
  exact ⟨_, first member, _, first member', before⟩

namespace Source

variable {path code : String} {s : Source}

theorem isItem_of_read (read : Source.read? path code = some s) : ∀ n ∈ s.items, n.IsItem :=
  isItem_outline (outline_of_read read)

/-- The names that a file exports are those that its own items export, whatever its namespaces
hold. They are listed by their first declarations. Every node leaves the walk as deep as it found
it, and adds what it adds where nothing stands in front of it. -/
theorem marks_exactly_module_exports (read : Source.read? path code = some s) :
    (∀ name, s.contents.markers.isExported name = true ↔ s.ExportsName name) ∧
    (∀ name, s.contents.markers.isVisited name = false) ∧
    (∀ name, name ∈ s.contents.exportedNames ↔
      s.contents.markers.isExported name = true ∧ s.contents.table.positions name ≠ []) ∧
    s.contents.exportedNames.Nodup ∧
    s.contents.exportedNames.Pairwise s.contents.table.StandsBefore ∧
    Node.walkAll s.text {} s.items = { depth := 0, contents := s.contents } ∧
    ∀ (w : Walk) (before : List Node) (n : Node),
      (n.walk s.text w).depth = w.depth ∧
      Contents.Joins (Node.walkAll s.text w before).contents
        (n.walk s.text { depth := w.depth }).contents
        (n.walk s.text (Node.walkAll s.text w before)).contents := by
  refine ⟨fun name => Node.isExported_addAllTo (isItem_of_read read), s.isVisited_contents,
    fun name => Contents.mem_exportedNames, ?_, s.contents.pairwise_exportedNames,
    Node.walkAll_eq _ _ _, fun w before n => ⟨?_, ?_⟩⟩
  · exact s.contents.nodup_rootsFor []
  · rw [Node.walk_eq]
  · simp only [Node.walk_eq, Node.walkAll_eq]
    exact Node.joins_addTo _ _ _ n

theorem marks_exactly_module_exports_nested :
    ∃ s ∈ Source.read? "a.ts" ("namespace N.M \x7b export interface A {} export { E } \x7d" ++
        " export interface B {} interface A {} export { A as C, D };" ++
        " declare global \x7b interface E {} \x7d export default interface F {}"),
      s.contents.exportedNames = ["A", "B", "F"] ∧ s.ExportsName "D" ∧ ¬s.ExportsName "E" ∧
      s.contents.table.StandsBefore "A" "B" := by
  obtain ⟨s, read, names, marked, unmarked⟩ :
      ∃ s ∈ Source.read? "a.ts"
          ("namespace N.M \x7b export interface A {} export { E } \x7d" ++
            " export interface B {} interface A {} export { A as C, D };" ++
            " declare global \x7b interface E {} \x7d export default interface F {}"),
        s.contents.exportedNames = ["A", "B", "F"] ∧
        s.contents.markers.isExported "D" = true ∧
        s.contents.markers.isExported "E" = false := by
    decide +kernel
  have ⟨marks, _, _, _, ordered, _⟩ := marks_exactly_module_exports read
  rw [names] at ordered
  refine ⟨s, read, names, (marks "D").mp marked, fun exported => ?_, ?_⟩
  · exact Bool.false_ne_true (unmarked.symm.trans ((marks "E").mpr exported))
  · exact (List.pairwise_cons.mp ordered).1 "B" List.mem_cons_self

/-- An entry says of a declaration what the file says. The name alone decides whether it counts as
exported. -/
structure Reports (s : Source) (o : Occurrence) (e : ClosureEntry) : Prop where
  name : e.name = o.decl.name
  kind : e.kind = o.decl.kind
  line : e.line = Text.lineAt s.text o.decl.offset
  exported : e.exported = true ↔ s.ExportsName o.decl.name

theorem reports_entry (read : Source.read? path code = some s) (o : Occurrence) :
    s.Reports o (Contents.entry s.contents.markers (o.entry s.text)) where
  name := rfl
  kind := rfl
  line := rfl
  exported := Node.isExported_addAllTo (isItem_of_read read)

/-- A closure lists collected declarations in the order of the text. One of them, inside a namespace
or not, is reported as exported if and only if an item of the file itself exports its name. -/
theorem exported_by_name (read : Source.read? path code = some s)
    (externals : List Glob.Pattern) (requested : List String) :
    ∃ positions : List Nat, positions.Pairwise (· < ·) ∧
      List.Forall₂ (fun position e => ∃ o, s.collected[position]? = some o ∧ s.Reports o e)
        positions (s.closure externals requested).declarations := by
  refine ⟨(s.contents.worklist externals (s.contents.rootsFor requested)).included,
    worklist_faithful.sorted, ?_⟩
  rw [declarations_closure]
  refine (forall₂_entry_filterMap fun position member => ?_).imp fun position e listed => ?_
  · obtain ⟨e, found, _⟩ := mem_included_worklist.mp member
    exact ⟨e, found⟩
  · obtain ⟨entry, found, rfl⟩ := listed
    rw [Table.get?_eq, toList_table_contents, List.getElem?_map, Option.map_eq_some_iff] at found
    obtain ⟨o, here, rfl⟩ := found
    exact ⟨o, here, reports_entry read o⟩

theorem exported_by_name_private :
    ∃ s ∈ Source.read? "a.ts"
        "namespace N \x7b export interface A { b: B } interface B {} \x7d export { B };",
      (s.closure [] ["A"]).declarations =
        [⟨"A", .interface, 1, false⟩, ⟨"B", .interface, 1, true⟩] ∧
      ¬s.ExportsName "A" ∧ s.ExportsName "B" := by
  obtain ⟨s, read, listed⟩ :
      ∃ s ∈ Source.read? "a.ts"
          "namespace N \x7b export interface A { b: B } interface B {} \x7d export { B };",
        (s.closure [] ["A"]).declarations =
          [⟨"A", .interface, 1, false⟩, ⟨"B", .interface, 1, true⟩] := by
    decide +kernel
  obtain ⟨positions, _, reported⟩ := exported_by_name read [] ["A"]
  rw [listed] at reported
  cases reported with
  | cons first rest =>
      cases rest with
      | cons second _ =>
          obtain ⟨a, _, first⟩ := first
          obtain ⟨b, _, second⟩ := second
          have private_a := first.exported
          have public_b := second.exported
          rw [← first.name] at private_a
          rw [← second.name] at public_b
          exact ⟨s, read, listed, fun exported => Bool.false_ne_true (private_a.mpr exported),
            public_b.mp rfl⟩

/-- A declaration of a namespace counts as exported when another one of its name is. -/
theorem namespaced_reported_exported :
    ∃ s ∈ Source.read? "a.ts"
        "export interface A {}\nnamespace N \x7b export interface A {} \x7d\n",
      ∃ e ∈ (s.closure [] []).declarations, e.name = "A" ∧ e.line = 2 ∧ e.exported = true ∧
        ∀ o ∈ s.occurrences, Text.lineAt s.text o.decl.offset = e.line →
          Enclosure.module ∈ o.around := by
  decide +kernel

end Source

end TypeClosure

import TypeClosure.Proofs.CrossFile
import TypeClosure.Proofs.Relisting

/-!
The names under which a file exports its type declarations, and what following finds of them. A
forwarded name is looked up among the names that the declarations of its file have there.
-/

namespace TypeClosure

/-- A declared name in an export list, and the name that other files see. -/
def ExportSpecifier.publicName? : ExportSpecifier → Option (String × String)
  | .named (.identifier declared) newName =>
      match newName.getD (.identifier declared) with
      | .identifier name => some (declared, name)
      | .string value => value.map (declared, ·)
  | .named (.string _) _ | .whole => none

/-- The type declaration that an item of a module is. -/
def Node.typeDecl? : Node → Option TypeDecl
  | .type d _ | .exported (.type d _) | .exportedDefault d _ => some d
  | _ => none

/-- The type declarations among those given that an item exports, by their public names. -/
def Node.exports (declared : List TypeDecl) : Node → List (TypeDecl × String)
  | .exported (.type d _) => [(d, d.name)]
  | .exportedDefault d _ => [(d, "default")]
  | .exportList specifiers =>
      (specifiers.filterMap ExportSpecifier.publicName?).flatMap fun (own, name) =>
        (declared.filter (·.name = own)).map (·, name)
  | _ => []

namespace Source

variable {s : Source}

def typeDecls (s : Source) : List TypeDecl := s.items.filterMap Node.typeDecl?

/-- The type declarations that a file exports, by their public names. -/
def exports (s : Source) : List (TypeDecl × String) :=
  s.items.flatMap (Node.exports s.typeDecls)

theorem mem_typeDecls_of_mem_exports {d : TypeDecl} {name : String}
    (exported : (d, name) ∈ s.exports) : d ∈ s.typeDecls := by
  obtain ⟨item, member, found⟩ := List.mem_flatMap.mp exported
  unfold Node.exports at found
  split at found
  · cases List.mem_singleton.mp found
    exact List.mem_filterMap.mpr ⟨_, member, rfl⟩
  · cases List.mem_singleton.mp found
    exact List.mem_filterMap.mpr ⟨_, member, rfl⟩
  · obtain ⟨_, _, found⟩ := List.mem_flatMap.mp found
    obtain ⟨other, inside, same⟩ := List.mem_map.mp found
    cases same
    exact (List.mem_filter.mp inside).1
  · exact absurd found List.not_mem_nil

theorem mem_table_keptByCollection (text : List Char) (e : TableEntry) :
    KeptByCollection text fun c => e ∈ c.table.toList := by
  apply KeptByCollection.of_table (P := fun table => e ∈ table.toList)
  intro table other member
  rw [Table.toList_insert]
  exact List.mem_append_left _ member

theorem mem_table_addTo {text : List Char} {c : Contents} {item : Node} {d : TypeDecl}
    (declares : item.typeDecl? = some d) :
    ⟨d, Text.lineAt text d.offset⟩ ∈ (item.addTo text 0 c).table.toList := by
  unfold Node.typeDecl? at declares
  split at declares
  · cases declares
    simp [Node.addTo, Contents.declare]
  · cases declares
    simp [Node.addTo, Contents.declare]
  · cases declares
    simp [Node.addTo, Contents.declare]
  · cases declares

theorem mem_table_addAllTo {text : List Char} {c : Contents} {items : List Node} {d : TypeDecl}
    (declared : d ∈ items.filterMap Node.typeDecl?) :
    ⟨d, Text.lineAt text d.offset⟩ ∈ (Node.addAllTo text 0 c items).table.toList := by
  induction items generalizing c with
  | nil => exact absurd declared List.not_mem_nil
  | cons item rest ih =>
      rw [Node.addAllTo]
      obtain ⟨other, member, declares⟩ := List.mem_filterMap.mp declared
      cases List.mem_cons.mp member with
      | inl here =>
          rw [here] at declares
          exact (mem_table_keptByCollection text _).addAllTo 0 rest (mem_table_addTo declares)
      | inr there => exact ih (List.mem_filterMap.mpr ⟨other, there, declares⟩)

theorem exists_position_of_mem_exports {d : TypeDecl} {name : String}
    (exported : (d, name) ∈ s.exports) :
    ∃ position e, s.contents.table.get? position = some e ∧ e.decl = d := by
  have member : ⟨d, Text.lineAt s.text d.offset⟩ ∈ s.contents.table.toList :=
    mem_table_addAllTo (mem_typeDecls_of_mem_exports exported)
  obtain ⟨position, found⟩ := List.mem_iff_getElem?.mp member
  exact ⟨position, _, by rw [Table.get?_eq, found], rfl⟩

end Source

namespace FileTree

variable {t : FileTree} {options : ClosureOptions} {path : String} {requested : List String}
  {tree : ClosureTree}

def ReportsMissing (t : FileTree) (tree : ClosureTree) (file name : String) : Prop :=
  ∃ c ∈ tree.closures, t.canonical c.file = file ∧ name ∈ c.missingRoots

instance (file name : String) : Decidable (t.ReportsMissing tree file name) :=
  inferInstanceAs (Decidable (∃ c ∈ tree.closures, t.canonical c.file = file ∧
    name ∈ c.missingRoots))

section Origins

variable (follows : options.followReexports = true)
  (result : (t.closure options path requested).1 = .ok tree) {c : Closure}
  (member : c ∈ tree.closures)

include follows result member

theorem covers_of_mem_missingRoots {name : String} (missing : name ∈ c.missingRoots) :
    t.Covers options c (t.canonical c.file) name := by
  obtain ⟨after, outcome⟩ := exists_outcome follows result
  obtain ⟨node, inside, rfl⟩ := ClosureTree.mem_closures.mp member
  have placed : name ∈ node.own.namesAt .missingRoots := missing
  exact (outcome.built node inside).covers_of_mem_namesAt placed

variable {r : Reexport} (needed : r ∈ c.reexports) {name : String} (named : name ∈ r.names)
  {file : String}
  (found : t.moduleFile? options.moduleExtensions c.file r.module = some file)

include needed named found

/-- The origin of a needed name is a root or a declaration of some closure of its file. -/
theorem exists_covers_of_origin :
    ∃ other ∈ tree.closures, t.Covers options other file (r.originOf name) ∧
      (r.originOf name ∈ other.roots ∨ r.originOf name ∈ other.declarationNames) := by
  obtain ⟨after, outcome⟩ := exists_outcome follows result
  obtain ⟨node, inside, rfl⟩ := ClosureTree.mem_closures.mp member
  have seen := outcome.followed node inside r needed name named file found
  cases outcome.covered file _ seen with
  | inl old => exact absurd old List.not_mem_nil
  | inr covered =>
      -- The file may have been followed for other names before, and have listed this one.
      obtain ⟨other, inside', same, listed⟩ := covered
      have covers := (outcome.built other inside').covers_of_listed listed
      rw [same] at covers
      exact ⟨other.own, ClosureTree.mem_closures.mpr ⟨other, inside', rfl⟩, covers, listed⟩

theorem missing_origin_iff (anchored : t.Anchored) {s : Source} (read : t.readSource file = .ok s)
    (allowed : isExternal options.externals (r.originOf name) = false) :
    t.ReportsMissing tree file (r.originOf name) ↔
      ¬ s.Declares (r.originOf name) ∧ s.contents.reexportOf? (r.originOf name) = none := by
  constructor
  · intro missing
    obtain ⟨other, inside, rfl, missing⟩ := missing
    have covers := covers_of_mem_missingRoots follows result inside missing
    obtain ⟨_, _, s', read', nowhere⟩ := (covers.mem_missingRoots_iff anchored).mp missing
    cases Except.ok.inj (read'.symm.trans read)
    exact nowhere
  · intro nowhere
    obtain ⟨other, inside, covers, listed⟩ :=
      exists_covers_of_origin follows result member needed named found
    refine ⟨other, inside, covers.1, (covers.mem_missingRoots_iff anchored).mpr ?_⟩
    cases listed with
    | inl root => exact ⟨allowed, root, s, read, nowhere⟩
    | inr declared =>
        obtain ⟨_, s', read', declares⟩ := (covers.mem_declarationNames_iff anchored).mp declared
        cases Except.ok.inj (read'.symm.trans read)
        exact absurd declares nowhere.1

end Origins

/-- Following finds an exported declaration under its own name. The origin of a needed name is
looked up among declared and forwarded names, so that one which is only a public name of its file
is missing there. -/
theorem export_found (anchored : t.Anchored) (follows : options.followReexports = true)
    (result : (t.closure options path requested).1 = .ok tree) {c : Closure}
    (member : c ∈ tree.closures) {r : Reexport} (needed : r ∈ c.reexports) {name : String}
    (named : name ∈ r.names) {file : String}
    (found : t.moduleFile? options.moduleExtensions c.file r.module = some file) {s : Source}
    (read : t.readSource file = .ok s)
    (allowed : isExternal options.externals (r.originOf name) = false) :
    (∀ d, (d, r.originOf name) ∈ s.exports → d.name = r.originOf name →
      (∃ other ∈ tree.closures, ∃ position e, s.contents.table.get? position = some e ∧
        e.decl = d ∧ t.Lists other file position) ∧
      ¬ t.ReportsMissing tree file (r.originOf name)) ∧
    (t.ReportsMissing tree file (r.originOf name) ↔
      ¬ s.Declares (r.originOf name) ∧ s.contents.reexportOf? (r.originOf name) = none) := by
  have missing := missing_origin_iff follows result member needed named found anchored read allowed
  refine ⟨?_, missing⟩
  intro d exported same
  obtain ⟨position, e, inTable, rfl⟩ := Source.exists_position_of_mem_exports exported
  constructor
  · obtain ⟨other, inside, covers, _⟩ :=
      exists_covers_of_origin follows result member needed named found
    obtain ⟨rfl, s', roots, read', eq, reachable⟩ := covers
    have reached : s.Reachable options.externals other.roots e.name := by
      rw [eq]
      rw [← same] at reachable
      exact reachable.congr (contents_of_readSource_canonical anchored read' read).symm
    have unmatched : isExternal options.externals e.name = false := (congrArg _ same).trans allowed
    have lists := (lists_iff_reachable anchored follows result inside read inTable).mpr
      ⟨reached, unmatched⟩
    exact ⟨other, inside, position, e, inTable, rfl, lists⟩
  · intro reported
    rw [Table.get?_eq] at inTable
    exact (missing.mp reported).1 (Source.declares_iff.mpr ⟨e, List.mem_of_getElem? inTable, same⟩)

theorem export_found_renamed :
    ∃ tree, (renamed.closure { followReexports := true } "index.ts" ["Page"]).1 = .ok tree ∧
      ∃ s, renamed.readSource "/w/parts.ts" = .ok s ∧
        ∃ p ∈ s.exports, p.2 = "Piece" ∧
          (∃ other ∈ tree.closures, ∃ position e, s.contents.table.get? position = some e ∧
            e.decl = p.1 ∧ renamed.Lists other "/w/parts.ts" position) ∧
          ¬ renamed.ReportsMissing tree "/w/parts.ts" "Piece" := by
  obtain ⟨tree, result, c, member, r, needed, named, origin, found, s, read, p, exported, same,
      own⟩ : ∃ tree,
      (renamed.closure { followReexports := true } "index.ts" ["Page"]).1 = .ok tree ∧
        ∃ c ∈ tree.closures, ∃ r ∈ c.reexports, "Part" ∈ r.names ∧ r.originOf "Part" = "Piece" ∧
          renamed.moduleFile? ({ followReexports := true } : ClosureOptions).moduleExtensions
            c.file r.module = some "/w/parts.ts" ∧
          ∃ s, renamed.readSource "/w/parts.ts" = .ok s ∧
            ∃ p ∈ s.exports, p.2 = "Piece" ∧ p.1.name = "Piece" := by
    decide +kernel
  obtain ⟨d, name⟩ := p
  cases same
  have finds := export_found (by decide +kernel) rfl result member needed named found read
    (by rw [origin]; decide)
  rw [origin] at finds
  exact ⟨tree, result, s, read, (d, _), exported, rfl, finds.1 d exported own⟩

/-- Declarations that are exported under other names than their own. -/
def disguised : FileTree where
  current := ["w"]
  entries := [(["w"], .directory),
    (["w", "index.ts"], .file (some "export { default as Props, Shown } from './view';")),
    (["w", "view.ts"], .file (some
      "export default interface Hidden {} interface Inner {} export { Inner as Shown };"))]

/-- A declaration may be exported under a name that following does not find. -/
theorem export_not_found_disguised :
    ∃ tree, (disguised.closure { followReexports := true } "index.ts" ["Props", "Shown"]).1 =
        .ok tree ∧
      ∃ c ∈ tree.closures, ∃ r ∈ c.reexports, r.origins = ["default", "Shown"] ∧
        disguised.moduleFile? ({ followReexports := true } : ClosureOptions).moduleExtensions
          c.file r.module = some "/w/view.ts" ∧
        ∃ s, disguised.readSource "/w/view.ts" = .ok s ∧
          s.exports.map Prod.snd = ["default", "Shown"] ∧
          ∀ p ∈ s.exports, isExternal [] p.2 = false ∧
            (∀ other ∈ tree.closures, p.1.name ∉ other.declarationNames) ∧
            disguised.ReportsMissing tree "/w/view.ts" p.2 := by
  decide +kernel

end FileTree

end TypeClosure

import TypeClosure.Proofs.Demand

/-! A followed closure speaks of the needed names in the nodes of their files, and of no others. -/

namespace TypeClosure.FileTree

variable {t : FileTree} {options : ClosureOptions} {path : String} {requested : List String}
  {tree : ClosureTree}

/-- A node of a file comes across a name. -/
def Covers (t : FileTree) (options : ClosureOptions) (c : Closure) (file name : String) : Prop :=
  t.canonical c.file = file ∧ ∃ s roots, t.readSource c.file = .ok s ∧
    c = s.closure options.externals roots ∧
    s.Reachable options.externals (s.contents.rootsFor roots) name

theorem Built.covers_of_mem_namesAt {node : ClosureTree} (built : t.Built options node)
    {place : Closure.Place} {name : String} (member : name ∈ node.own.namesAt place) :
    t.Covers options node.own (t.canonical node.own.file) name := by
  obtain ⟨s, roots, read, eq⟩ := built.closure
  refine ⟨rfl, s, roots, read, eq, ?_⟩
  rw [eq] at member
  exact (Source.reachable_of_mem_namesAt member).1

theorem Built.covers_of_listed {node : ClosureTree} (built : t.Built options node) {name : String}
    (listed : name ∈ node.own.roots ∨ name ∈ node.own.declarationNames) :
    t.Covers options node.own (t.canonical node.own.file) name := by
  obtain ⟨s, roots, read, eq⟩ := built.closure
  refine ⟨rfl, s, roots, read, eq, ?_⟩
  rw [eq] at listed
  rcases listed with root | declared
  · exact .root root
  · exact (Source.mem_declarationNames_closure.mp declared).1

section Covers

variable (anchored : t.Anchored)

include anchored

/-- The source of a file by its one spelling has the contents that a node of it was built from. -/
theorem Covers.source {c : Closure} {file name : String}
    (covers : t.Covers options c file name) :
    ∃ s s' roots, t.readSource c.file = .ok s ∧ t.readSource file = .ok s' ∧
      s'.contents = s.contents ∧ c = s.closure options.externals roots ∧
      s.Reachable options.externals (s.contents.rootsFor roots) name := by
  obtain ⟨rfl, s, roots, read, eq, reachable⟩ := covers
  obtain ⟨s', read', same⟩ := readSource_canonical anchored read
  exact ⟨s, s', roots, read, read', same, eq, reachable⟩

theorem Covers.mem_declarationNames_iff {c : Closure} {file name : String}
    (covers : t.Covers options c file name) :
    name ∈ c.declarationNames ↔ isExternal options.externals name = false ∧
      ∃ s, t.readSource file = .ok s ∧ s.Declares name := by
  obtain ⟨s, s', roots, _, read', same, rfl, reachable⟩ := covers.source anchored
  rw [Source.mem_declarationNames_closure, Source.standing_eq_declared, read']
  simp [reachable, Source.declares_congr same]

theorem Covers.mem_missingRoots_iff {c : Closure} {file name : String}
    (covers : t.Covers options c file name) :
    name ∈ c.missingRoots ↔ isExternal options.externals name = false ∧ name ∈ c.roots ∧
      ∃ s, t.readSource file = .ok s ∧ ¬ s.Declares name ∧ s.contents.reexportOf? name = none := by
  obtain ⟨s, s', roots, _, read', same, rfl, reachable⟩ := covers.source anchored
  rw [Source.mem_missingRoots_closure, Source.standing_eq_missing, read']
  change _ ↔ _ ∧ name ∈ s.contents.rootsFor roots ∧ _
  simp only [reachable, Except.ok.injEq, exists_eq_left', Source.declares_congr same, same]
  tauto

variable (plain : ∀ e ∈ options.moduleExtensions, Path.isAbsolute e = false)

include plain

/-- The modules that were not found are those that no file stands for. -/
theorem Built.moduleFile?_of_mem_unresolved {node : ClosureTree}
    (built : t.Built options node) {name : String} {r : Reexport}
    (forwarded : t.ForwardedBy options (t.canonical node.own.file) name r)
    (unfound : r.module ∈ node.unresolved) :
    t.moduleFile? options.moduleExtensions (t.canonical node.own.file) r.module = none := by
  obtain ⟨s, roots, read, _⟩ := built.closure
  obtain ⟨s', read', _, _, first⟩ := forwarded
  obtain ⟨position, _, stated⟩ := Option.bind_eq_some_iff.mp first
  rw [contents_of_readSource_canonical anchored read read'] at stated
  rw [moduleFile?_canonical anchored plain read (List.mem_of_getElem? stated)]
  rw [built.unresolved] at unfound
  obtain ⟨_, _, _, nowhere⟩ := mem_unresolvedModules.mp unfound
  exact nowhere

theorem Built.mem_unresolved {node : ClosureTree}
    (built : t.Built options node) {file name : String} {r : Reexport}
    (covers : t.Covers options node.own file name) (forwarded : t.ForwardedBy options file name r)
    (nowhere : t.moduleFile? options.moduleExtensions file r.module = none) :
    r.module ∈ node.unresolved := by
  obtain ⟨rfl, s, roots, read, eq, reachable⟩ := covers
  obtain ⟨needed, listed, _, module, _, spelled⟩ :=
    mem_reexports_of_forwardedBy anchored plain read reachable forwarded
  rw [built.unresolved]
  refine mem_unresolvedModules.mpr ⟨needed, ?_, module, ?_⟩
  · rwa [eq]
  · rw [← spelled, nowhere]

/-- What a node takes from another file is a root or a declaration of some node of that file. -/
theorem Outcome.exists_listed {demanded : String → String → Prop} {nodes : List ClosureTree}
    {after : List (String × String)} (outcome : Outcome t options demanded [] nodes after)
    {node : ClosureTree} (member : node ∈ nodes) {file name target origin : String}
    (covers : t.Covers options node.own file name)
    (forwards : t.Forwards options file name target origin) :
    ∃ other ∈ nodes, t.Covers options other.own target origin ∧
      (origin ∈ other.own.roots ∨ origin ∈ other.own.declarationNames) := by
  obtain ⟨rfl, s, roots, read, eq, reachable⟩ := covers
  obtain ⟨r, forwarded, named, found, rfl⟩ :=
    mem_reexports_of_forwards anchored plain read reachable forwards
  rw [← eq] at forwarded
  have seen := outcome.followed node member r forwarded name named target found
  rcases outcome.covered target _ seen with old | ⟨other, member', rfl, listed⟩
  · exact absurd old List.not_mem_nil
  · exact ⟨other, member', (outcome.built other member').covers_of_listed listed, listed⟩

end Covers

section Exact

variable (anchored : t.Anchored) (follows : options.followReexports = true)
  (plain : ∀ e ∈ options.moduleExtensions, Path.isAbsolute e = false)
  (result : (t.closure options path requested).1 = .ok tree)

include anchored follows plain result

theorem outcome_closure :
    ∃ after, Outcome t options (t.Demanded options (t.canonical path) requested) [] tree.nodes
      after := by
  simp only [closure, follows, if_true] at result
  refine ⟨_, (outcome_followUpTo follows (propagates_demanded anchored plain)
    (Prod.ext result rfl) ?_).1⟩
  intro s read name member
  exact .inl ⟨rfl, (requested_iff_mem_rootsFor anchored read).mpr member⟩

omit plain in
theorem covers_of_requested {name : String}
    (root : t.Requested (t.canonical path) requested name) :
    t.Covers options tree.own (t.canonical path) name ∧ name ∈ tree.own.roots := by
  simp only [closure, follows, if_true] at result
  obtain ⟨m, s, followed, _, read, _, rfl⟩ := followUpTo_eq_ok follows (Prod.ext result rfl)
  have member := (requested_iff_mem_rootsFor anchored read).mp root
  have file : (s.closure options.externals requested).file = path := file_closure read _ _
  refine ⟨⟨congrArg t.canonical file, s, requested, ?_, rfl, .root member⟩, member⟩
  exact (congrArg t.readSource file).trans read

theorem exists_covers_of_needed {file name : String}
    (needed : t.Needed options (t.canonical path) requested file name) :
    ∃ node ∈ tree.nodes, t.Covers options node.own file name := by
  obtain ⟨after, outcome⟩ := outcome_closure anchored follows plain result
  induction needed with
  | root root =>
      exact ⟨tree, tree.mem_nodes_self, (covers_of_requested anchored follows result root).1⟩
  | reference _ allowed read' refers ih =>
      obtain ⟨node, member, covers⟩ := ih
      obtain ⟨s, s', roots, read, found, same, eq, reachable⟩ := covers.source anchored
      cases Except.ok.inj (found.symm.trans read')
      exact ⟨node, member, covers.1, s, roots, read, eq,
        .reference reachable allowed ((Source.refers_congr same).mp refers)⟩
  | forwarded _ forwards ih =>
      obtain ⟨node, member, covers⟩ := ih
      obtain ⟨other, member', covers', _⟩ :=
        outcome.exists_listed anchored plain member covers forwards
      exact ⟨other, member', covers'⟩

theorem needed_of_covers {node : ClosureTree} (member : node ∈ tree.nodes) {file name : String}
    (covers : t.Covers options node.own file name) :
    t.Needed options (t.canonical path) requested file name := by
  obtain ⟨after, outcome⟩ := outcome_closure anchored follows plain result
  obtain ⟨rfl, s, roots, read, eq, reachable⟩ := covers
  refine needed_of_reachable anchored read ?_ reachable
  intro root demanded
  refine (outcome.sound node member root ?_).needed
  rw [eq]
  exact demanded

theorem exists_listed_of_demanded {file name : String}
    (demanded : t.Demanded options (t.canonical path) requested file name) :
    ∃ node ∈ tree.nodes, t.Covers options node.own file name ∧
      (name ∈ node.own.roots ∨ name ∈ node.own.declarationNames) := by
  rcases demanded with ⟨rfl, root⟩ | ⟨_, _, needed, forwards⟩
  · obtain ⟨covers, member⟩ := covers_of_requested anchored follows result root
    exact ⟨tree, tree.mem_nodes_self, covers, .inl member⟩
  · obtain ⟨after, outcome⟩ := outcome_closure anchored follows plain result
    obtain ⟨node, member, covers⟩ := exists_covers_of_needed anchored follows plain result needed
    exact outcome.exists_listed anchored plain member covers forwards

theorem built_of_mem_nodes {node : ClosureTree} (member : node ∈ tree.nodes) :
    t.Built options node := by
  obtain ⟨after, outcome⟩ := outcome_closure anchored follows plain result
  exact outcome.built node member

theorem needed_iff_mem_namesAt {file name : String} :
    (∃ c ∈ tree.closures, t.canonical c.file = file ∧ ∃ place, name ∈ c.namesAt place) ↔
      t.Needed options (t.canonical path) requested file name := by
  constructor
  · rintro ⟨c, listed, rfl, place, member⟩
    obtain ⟨node, found, rfl⟩ := ClosureTree.mem_closures.mp listed
    have built := built_of_mem_nodes anchored follows plain result found
    exact needed_of_covers anchored follows plain result found (built.covers_of_mem_namesAt member)
  · intro needed
    obtain ⟨node, found, covers⟩ := exists_covers_of_needed anchored follows plain result needed
    obtain ⟨same, s, roots, _, eq, reachable⟩ := covers
    refine ⟨node.own, ClosureTree.mem_closures.mpr ⟨node, found, rfl⟩, same, ?_⟩
    rw [eq]
    exact Source.exists_place reachable

theorem declared_iff_needed {file name : String} :
    (∃ c ∈ tree.closures, t.canonical c.file = file ∧ name ∈ c.declarationNames) ↔
      t.Needed options (t.canonical path) requested file name ∧
        isExternal options.externals name = false ∧
        ∃ s, t.readSource file = .ok s ∧ s.Declares name := by
  constructor
  · rintro ⟨c, listed, rfl, member⟩
    obtain ⟨node, found, rfl⟩ := ClosureTree.mem_closures.mp listed
    have built := built_of_mem_nodes anchored follows plain result found
    have covers := built.covers_of_listed (.inr member)
    exact ⟨needed_of_covers anchored follows plain result found covers,
      (covers.mem_declarationNames_iff anchored).mp member⟩
  · rintro ⟨needed, declared⟩
    obtain ⟨node, found, covers⟩ := exists_covers_of_needed anchored follows plain result needed
    exact ⟨node.own, ClosureTree.mem_closures.mpr ⟨node, found, rfl⟩, covers.1,
      (covers.mem_declarationNames_iff anchored).mpr declared⟩

theorem missing_iff_demanded {file name : String} :
    (∃ c ∈ tree.closures, t.canonical c.file = file ∧ name ∈ c.missingRoots) ↔
      t.Demanded options (t.canonical path) requested file name ∧
        isExternal options.externals name = false ∧
        ∃ s, t.readSource file = .ok s ∧ ¬ s.Declares name ∧
          s.contents.reexportOf? name = none := by
  obtain ⟨after, outcome⟩ := outcome_closure anchored follows plain result
  constructor
  · rintro ⟨c, listed, rfl, member⟩
    obtain ⟨node, found, rfl⟩ := ClosureTree.mem_closures.mp listed
    have placed : name ∈ node.own.namesAt .missingRoots := member
    have covers := (outcome.built node found).covers_of_mem_namesAt placed
    obtain ⟨allowed, root, nowhere⟩ := (covers.mem_missingRoots_iff anchored).mp member
    exact ⟨outcome.sound node found name root, allowed, nowhere⟩
  · rintro ⟨demanded, allowed, s, read, undeclared, unforwarded⟩
    obtain ⟨node, found, covers, root | declared⟩ :=
      exists_listed_of_demanded anchored follows plain result demanded
    · exact ⟨node.own, ClosureTree.mem_closures.mpr ⟨node, found, rfl⟩, covers.1,
        (covers.mem_missingRoots_iff anchored).mpr
          ⟨allowed, root, s, read, undeclared, unforwarded⟩⟩
    · obtain ⟨_, s', read', declares⟩ := (covers.mem_declarationNames_iff anchored).mp declared
      cases Except.ok.inj (read'.symm.trans read)
      exact absurd declares undeclared

end Exact

/-- A followed closure is exact. The declarations that its nodes list are those that are needed of
their files and match no external pattern; their missing roots are the names that are demanded of
a file which neither declares nor forwards them; and they speak of no name that is not needed. -/
theorem closure_exact (anchored : t.Anchored) (follows : options.followReexports = true)
    (plain : ∀ e ∈ options.moduleExtensions, Path.isAbsolute e = false)
    (result : (t.closure options path requested).1 = .ok tree) (file name : String) :
    ((∃ c ∈ tree.closures, t.canonical c.file = file ∧ name ∈ c.declarationNames) ↔
      t.Needed options (t.canonical path) requested file name ∧
        isExternal options.externals name = false ∧
        ∃ s, t.readSource file = .ok s ∧ s.Declares name) ∧
    ((∃ c ∈ tree.closures, t.canonical c.file = file ∧ name ∈ c.missingRoots) ↔
      t.Demanded options (t.canonical path) requested file name ∧
        isExternal options.externals name = false ∧
        ∃ s, t.readSource file = .ok s ∧ ¬ s.Declares name ∧
          s.contents.reexportOf? name = none) ∧
    ((∃ c ∈ tree.closures, t.canonical c.file = file ∧ ∃ place, name ∈ c.namesAt place) ↔
      t.Needed options (t.canonical path) requested file name) :=
  ⟨declared_iff_needed anchored follows plain result,
    missing_iff_demanded anchored follows plain result,
    needed_iff_mem_namesAt anchored follows plain result⟩

/-- A page with a part that another file declares under another name. -/
def renamed : FileTree where
  current := ["w"]
  entries := [(["w"], .directory),
    (["w", "index.ts"], .file (some
      "export { Piece as Part } from './parts'; interface Page { part: Part }")),
    (["w", "parts.ts"], .file (some
      "export interface Piece { label: Label } interface Label {}"))]

theorem closure_exact_renamed :
    ∃ tree, (renamed.closure { followReexports := true } "index.ts" ["Page"]).1 = .ok tree ∧
      renamed.Needed { followReexports := true } (renamed.canonical "index.ts") ["Page"]
        "/w/parts.ts" "Label" ∧
      ∃ s, renamed.readSource "/w/parts.ts" = .ok s ∧ s.Declares "Label" := by
  obtain ⟨tree, result, listed⟩ : ∃ tree,
      (renamed.closure { followReexports := true } "index.ts" ["Page"]).1 = .ok tree ∧
        ∃ c ∈ tree.closures, renamed.canonical c.file = "/w/parts.ts" ∧
          "Label" ∈ c.declarationNames := by
    decide +kernel
  have exactness := closure_exact (by decide +kernel) rfl (by decide) result "/w/parts.ts" "Label"
  obtain ⟨needed, _, declared⟩ := exactness.1.mp listed
  exact ⟨tree, result, needed, declared⟩

/-- A statement that leads to a file only where its own file is spelled with a directory. -/
def slashed : FileTree where
  current := ["w"]
  entries := [(["w"], .directory),
    (["w", "a.ts"], .file (some "export { N } from '.js'; export { X } from './b';")),
    (["w", "b.ts"], .file (some "export { N as X } from './a';")),
    (["w", "c.ts"], .file (some "export interface N { m: M } interface M {}"))]

/-- With an extension that begins with a slash, a needed declaration may be missed. -/
theorem closure_inexact_slashed :
    ∃ tree, (slashed.closure { followReexports := true, moduleExtensions := [".ts", "/c.ts"] }
        "a.ts" ["N", "X"]).1 = .ok tree ∧
      slashed.Needed { followReexports := true, moduleExtensions := [".ts", "/c.ts"] }
        (slashed.canonical "a.ts") ["N", "X"] "/w/c.ts" "N" ∧
      (∃ s, slashed.readSource "/w/c.ts" = .ok s ∧ s.Declares "N") ∧
      ¬ ∃ c ∈ tree.closures, slashed.canonical c.file = "/w/c.ts" ∧ "N" ∈ c.declarationNames := by
  obtain ⟨tree, result, unlisted⟩ : ∃ tree,
      (slashed.closure { followReexports := true, moduleExtensions := [".ts", "/c.ts"] }
        "a.ts" ["N", "X"]).1 = .ok tree ∧
      ¬ ∃ c ∈ tree.closures, slashed.canonical c.file = "/w/c.ts" ∧
        "N" ∈ c.declarationNames := by
    decide +kernel
  have root : slashed.Requested (slashed.canonical "a.ts") ["N", "X"] "N" := by decide +kernel
  refine ⟨tree, result, .forwarded (.root root) ?_, by decide +kernel, unlisted⟩
  decide +kernel

end TypeClosure.FileTree

import TypeClosure.Proofs.ModuleExports
import TypeClosure.Proofs.SourceOrder
import TypeClosure.Proofs.TreeReport

/-!
A request without names stands for what the file exports. Such roots are declared, so none of them
is missing: each matches an external pattern, or all of its declarations are listed.
-/

namespace TypeClosure

namespace Source

variable {path text : String} {s : Source} {externals : List Glob.Pattern} {name other : String}

/-! ### Order -/

/-- The first collected declaration of a name is collected in front of all those of a name that
stands behind it in the table. -/
theorem exists_first_of_standsBefore (before : s.contents.table.StandsBefore name other) :
    ∃ o ∈ s.collected.find? (·.decl.name = name),
      ∀ later ∈ s.collected, later.decl.name = other → [o, later].Sublist s.collected := by
  obtain ⟨position, first, position', first', lt⟩ := before
  have names : s.contents.table.toList.map TableEntry.name =
      s.collected.map fun o => o.decl.name := by
    rw [toList_table_contents, List.map_map]
    rfl
  rw [Option.mem_def, Table.head?_positions, names, List.idxOf?,
    List.findIdx?_eq_some_iff_getElem] at first first'
  obtain ⟨bound, here, none⟩ := first
  obtain ⟨_, _, none'⟩ := first'
  simp only [List.length_map, List.getElem_map, beq_iff_eq] at bound here none none'
  refine ⟨s.collected[position], ?_, fun later member same => ?_⟩
  · rw [Option.mem_def, List.find?_eq_some_iff_getElem]
    exact ⟨by simpa using here, position, bound, rfl, fun j le => by simpa using none j le⟩
  · -- No declaration of the other name stands in front of its first one.
    obtain ⟨k, bound', rfl⟩ := List.getElem_of_mem member
    have behind : position < k :=
      Nat.lt_of_lt_of_le lt (Nat.le_of_not_lt fun less => none' k less same)
    exact List.pairwise_iff_getElem.mp (List.pairwise_iff_forall_sublist.mpr fun inside => inside)
      position k bound bound' behind

/-! ### Roots that are exported -/

theorem declares_of_mem_exportedNames (member : name ∈ s.contents.exportedNames) :
    s.Declares name :=
  declares_iff_positions.mpr (Contents.mem_exportedNames.mp member).2

/-- Nothing that a request without names stands for is missing. -/
theorem missingRoots_closure_nil : (s.closure externals []).missingRoots = [] := by
  rw [List.eq_nil_iff_forall_not_mem]
  intro name missing
  obtain ⟨-, undeclared, -, root⟩ :=
    standing_eq_missing.mp (mem_missingRoots_closure.mp missing).2
  exact undeclared (declares_of_mem_exportedNames root)

theorem lists_of_mem_roots {requested : List String}
    (root : name ∈ s.contents.rootsFor requested) (looked : isExternal externals name = false)
    {position : Nat} (declared : position ∈ s.contents.table.positions name) :
    s.Lists (s.closure externals requested) position := by
  obtain ⟨e, found, rfl⟩ := Table.mem_positions.mp declared
  exact lists_iff_mem_included.mpr (mem_included_worklist.mpr ⟨e, found, .root root, looked⟩)

theorem mem_external_of_mem_roots {requested : List String}
    (root : name ∈ s.contents.rootsFor requested) (external : isExternal externals name = true) :
    name ∈ (s.closure externals requested).external :=
  mem_external_closure.mpr ⟨.root root, standing_of_isExternal external⟩

end Source

/-! ### The command -/

open Command

/-- Where nothing is followed and no names are given, a command comes to the closure of what its
file exports. -/
theorem exists_closure_of_requestedClosure {files : FileTree} {a : ClosureArguments}
    {config : Config} {tree : ClosureTree} (unnamed : a.types = [])
    (alone : a.followReexports = false) (rootless : config.roots = [])
    (unfollowed : config.followReexports = false)
    (built : (requestedClosure files a config).1 = .ok tree) :
    ∃ (s : Source) (externals : List Glob.Pattern), files.readSource a.file = .ok s ∧
      tree = .node (s.closure externals []) [] [] := by
  unfold requestedClosure Config.closureOptions at built
  cases patterns : config.externalPatterns with
  | error f =>
      rw [patterns] at built
      cases built
  | ok externals =>
      rw [patterns, unnamed, rootless, alone, unfollowed] at built
      let options : ClosureOptions :=
        { externals, followReexports := false, moduleExtensions := config.moduleExtensions }
      change ((files.closure options a.file []).1.mapError _) = .ok tree at built
      cases result : (files.closure options a.file []).1 with
      | error f =>
          rw [result] at built
          cases built
      | ok own =>
          rw [result] at built
          cases built
          simp only [FileTree.closure] at result
          obtain ⟨s, read, same, -⟩ := FileTree.followUpTo_alone_eq_ok rfl (Prod.ext result rfl)
          exact ⟨s, externals, read, same⟩

/-- Without names, in the command line and in the configuration, the closure of one file misses
nothing. -/
theorem ending_runClosure_ne_failure {files : FileTree} {a : ClosureArguments}
    (unnamed : a.types = []) (alone : a.followReexports = false)
    (configured : ∀ loaded, files.loadConfig (FileTree.pathOf files.current) = .ok loaded →
      loaded.config.roots = [] ∧ loaded.config.followReexports = false) :
    (runClosure files a).ending ≠ .failure := by
  cases found : files.loadConfig (FileTree.pathOf files.current) with
  | error f => simp [runClosure, found]
  | ok loaded =>
      obtain ⟨rootless, unfollowed⟩ := configured loaded found
      cases built : (requestedClosure files a loaded.config).1 with
      | error f => simp [runClosure, found, built]
      | ok tree =>
          obtain ⟨s, externals, -, rfl⟩ :=
            exists_closure_of_requestedClosure unnamed alone rootless unfollowed built
          rw [(runClosure_of_builds ⟨loaded, found, built⟩).2, ClosureTree.hasMissingRoots_node,
            Source.missingRoots_closure_nil]
          exact Ending.noConfusion

namespace Source

variable {path text : String} {s : Source}

/-- A request without names stands for the names that the file exports and declares, each once, in
the order in which their first declarations are collected: the first declaration of a root, unless
an accessor encloses it, is written in front of all declarations of the roots behind it. None of
these roots is missing. Each is external if it matches an external pattern; else the closure lists
all its declarations. To ask for these names comes to the same closure, and the command for one
file, with no names and nothing to follow, does not fail. -/
theorem default_roots_found (read : Source.read? path text = some s)
    (externals : List Glob.Pattern) :
    let c := s.closure externals []
    (c.roots = s.contents.exportedNames ∧ c.roots.Nodup ∧
      ∀ name, name ∈ c.roots ↔ s.ExportsName name ∧ s.Declares name) ∧
    c.roots.Pairwise (fun name other => ∃ o ∈ s.collected.find? (·.decl.name = name),
      ∀ later ∈ s.collected, later.decl.name = other → [o, later].Sublist s.collected ∧
        (Enclosure.code .accessor ∉ o.around → o.decl.offset < later.decl.offset)) ∧
    c.missingRoots = [] ∧
    (∀ name ∈ c.roots, isExternal externals name = true ∧ name ∈ c.external ∨
      isExternal externals name = false ∧
        ∀ position ∈ s.contents.table.positions name, s.Lists c position) ∧
    (s.contents.exportedNames ≠ [] → s.closure externals s.contents.exportedNames = c) ∧
    ∀ (files : FileTree) (a : ClosureArguments), a.types = [] → a.followReexports = false →
      (∀ loaded, files.loadConfig (FileTree.pathOf files.current) = .ok loaded →
        loaded.config.roots = [] ∧ loaded.config.followReexports = false) →
      (runClosure files a).ending ≠ .failure := by
  intro c
  refine ⟨⟨rfl, s.contents.nodup_rootsFor [], fun name => ?_⟩, ?_, missingRoots_closure_nil,
    fun name root => ?_, fun _ => s.closure_roots externals [],
    fun files a unnamed alone configured => ending_runClosure_ne_failure unnamed alone configured⟩
  · exact Contents.mem_exportedNames.trans
      (and_congr (Node.isExported_addAllTo (isItem_of_read read)) declares_iff_positions.symm)
  · refine s.contents.pairwise_exportedNames.imp fun before => ?_
    obtain ⟨o, first, ahead⟩ := exists_first_of_standsBefore before
    refine ⟨o, first, fun later member same => ⟨ahead later member same, ?_⟩⟩
    exact List.pairwise_iff_forall_sublist.mp (pairwise_collected read) (ahead later member same)
  · cases looked : isExternal externals name with
    | true => exact .inl ⟨rfl, mem_external_of_mem_roots root looked⟩
    | false => exact .inr ⟨rfl, fun position declared => lists_of_mem_roots root looked declared⟩

theorem default_roots_found_mixed :
    ∃ s ∈ Source.read? "a.ts" ("namespace N \x7b export interface A \x7b x: Hidden \x7d \x7d" ++
        " interface Hidden \x7b\x7d const v = 1; export \x7b v, B, A, Nothing \x7d;" ++
        " interface B \x7b\x7d interface A \x7b\x7d"),
      s.contents.exportedNames = ["A", "B"] ∧
      (s.closure [] []).missingRoots = [] ∧
      ((s.closure [] []).declarations.map fun d => d.name) = ["A", "Hidden", "B", "A"] ∧
      s.closure [] ["A", "B"] = s.closure [] [] := by
  obtain ⟨s, read, names, listed⟩ :
      ∃ s ∈ Source.read? "a.ts"
          ("namespace N \x7b export interface A \x7b x: Hidden \x7d \x7d" ++
            " interface Hidden \x7b\x7d const v = 1; export \x7b v, B, A, Nothing \x7d;" ++
            " interface B \x7b\x7d interface A \x7b\x7d"),
        s.contents.exportedNames = ["A", "B"] ∧
        ((s.closure [] []).declarations.map fun d => d.name) = ["A", "Hidden", "B", "A"] := by
    decide +kernel
  obtain ⟨_, _, missing, _, same, _⟩ := default_roots_found read []
  have asked := same (by simp [names])
  rw [names] at asked
  exact ⟨s, read, names, missing, listed, asked⟩

/-- A root whose first declaration stands in an accessor may come in front of a root that is
declared before it. -/
theorem default_roots_out_of_order :
    ∃ s ∈ Source.read? "a.ts"
        "do \x7b\n interface A \x7b\x7d\n\x7d while (\x7b get x() \x7b\n interface B \x7b\x7d
 return 1; \x7d \x7d);\nexport \x7b A, B \x7d;",
      (s.closure [] []).roots = ["B", "A"] ∧
      ((s.closure [] []).declarations.map fun d => (d.name, d.line)) = [("B", 4), ("A", 2)] ∧
      ¬(s.closure [] []).roots.Pairwise fun name other =>
        ∃ o ∈ s.collected.find? (·.decl.name = name), ∀ later ∈ s.collected,
          later.decl.name = other → o.decl.offset < later.decl.offset := by
  decide +kernel

end Source

end TypeClosure

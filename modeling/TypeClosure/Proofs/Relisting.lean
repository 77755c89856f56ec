import TypeClosure.Proofs.Demand
import TypeClosure.Proofs.Freshness

/-!
When two closures of one file list a declaration. Only names that are demanded are followed once;
what they refer to is listed by each closure that they lead to it.
-/

namespace TypeClosure.FileTree

variable {t : FileTree} {options : ClosureOptions} {path : String} {requested : List String}
  {tree : ClosureTree}

def Lists (t : FileTree) (c : Closure) (file : String) (position : Nat) : Prop :=
  t.canonical c.file = file ∧ ∃ s, t.readSource file = .ok s ∧ s.Lists c position

instance (c : Closure) (file : String) (position : Nat) : Decidable (t.Lists c file position) :=
  inferInstanceAs (Decidable (t.canonical c.file = file ∧ ∃ s, t.readSource file = .ok s ∧
    s.Lists c position))

theorem lists_iff_reachable (anchored : t.Anchored) (follows : options.followReexports = true)
    (result : (t.closure options path requested).1 = .ok tree) {c : Closure}
    (member : c ∈ tree.closures) {s : Source} (read : t.readSource (t.canonical c.file) = .ok s)
    {position : Nat} {e : TableEntry} (found : s.contents.table.get? position = some e) :
    t.Lists c (t.canonical c.file) position ↔
      s.Reachable options.externals c.roots e.name ∧
        isExternal options.externals e.name = false := by
  obtain ⟨s', roots, read', eq⟩ := source_of_mem_closures follows result member
  have same := contents_of_readSource_canonical anchored read' read
  have reached : s'.Reachable options.externals c.roots e.name ↔
      s.Reachable options.externals c.roots e.name :=
    ⟨.congr same.symm, .congr same⟩
  have listed : Contents.entry s.contents.markers e ∈ c.declarations ↔
      s'.Reachable options.externals c.roots e.name ∧
        isExternal options.externals e.name = false := by
    rw [Table.get?_eq, same] at found
    rw [same, eq]
    exact Source.entry_mem_declarations_closure (List.mem_of_getElem? found)
  rw [← reached, ← listed]
  simp [Lists, Source.Lists, read, found]

theorem exists_referrer_of_reachable {s : Source} {externals : List Glob.Pattern}
    {roots : List String} {name : String} (reachable : s.Reachable externals roots name)
    (asked : name ∉ roots) :
    ∃ other, other ≠ name ∧ s.Reachable externals roots other ∧
      isExternal externals other = false ∧ s.Refers other name := by
  induction reachable with
  | root member => contradiction
  | @reference origin target reachable allowed refers ih =>
      -- Each declaration mentions itself; such a step leads nowhere.
      by_cases same : origin = target
      · rw [same] at ih
        exact ih asked
      · exact ⟨origin, same, reachable, allowed, refers⟩

/-- Of two closures of a file, the later one is asked for no name that the earlier one was asked
for or lists. Both list a declaration if and only if both lead to it, the later one from another
name that refers to it. -/
theorem listed_again_iff (anchored : t.Anchored) (follows : options.followReexports = true)
    (result : (t.closure options path requested).1 = .ok tree) :
    tree.closures.Pairwise fun first second =>
      t.canonical first.file = t.canonical second.file →
        (∀ name ∈ second.roots, name ∉ first.roots ∧ name ∉ first.declarationNames) ∧
        ∀ s, t.readSource (t.canonical first.file) = .ok s →
          ∀ position e, s.contents.table.get? position = some e →
            (t.Lists first (t.canonical first.file) position ∧
                t.Lists second (t.canonical second.file) position ↔
              isExternal options.externals e.name = false ∧
                s.Reachable options.externals first.roots e.name ∧
                ∃ other, other ≠ e.name ∧ s.Reachable options.externals second.roots other ∧
                  isExternal options.externals other = false ∧ s.Refers other e.name) := by
  obtain ⟨after, fresh⟩ := fresh_closure result
  refine fresh.later.imp_of_mem ?_
  intro first second listed listed' unmarked same
  have asked : ∀ name ∈ second.roots, name ∉ first.roots ∧ name ∉ first.declarationNames := by
    intro name root
    have unseen := unmarked (t.canonical second.file, name) (mem_demands.mpr ⟨rfl, root⟩)
    rw [mem_marks, not_and, not_or] at unseen
    exact unseen same
  refine ⟨asked, ?_⟩
  intro s read position e found
  have lists := lists_iff_reachable anchored follows result listed read found
  have lists' := lists_iff_reachable anchored follows result listed' (same ▸ read) found
  constructor
  · intro both
    have ⟨reachable, allowed⟩ := lists.mp both.1
    have again := (lists'.mp both.2).1
    have unasked : e.name ∉ second.roots := by
      intro root
      apply (asked e.name root).2
      obtain ⟨_, s', read', e', found', inside⟩ := both.1
      cases Except.ok.inj (read'.symm.trans read)
      cases Option.some.inj (found'.symm.trans found)
      exact List.mem_map_of_mem inside
    exact ⟨allowed, reachable, exists_referrer_of_reachable again unasked⟩
  · intro shared
    obtain ⟨allowed, reachable, other, _, reachable', allowed', refers⟩ := shared
    have again := lists'.mpr ⟨.reference reachable' allowed' refers, allowed⟩
    exact ⟨lists.mpr ⟨reachable, allowed⟩, again⟩

/-- Two declarations of a file that share a part, taken from it by two other files. -/
def shared : FileTree where
  current := ["w"]
  entries := [(["w"], .directory),
    (["w", "index.ts"], .file (some
      "export { Left } from './left'; export { Right } from './right';")),
    (["w", "left.ts"], .file (some
      "export { A } from './shared'; export interface Left { a: A }")),
    (["w", "right.ts"], .file (some
      "export { B } from './shared'; export interface Right { b: B }")),
    (["w", "shared.ts"], .file (some
      "export interface A { c: C } export interface B { c: C } interface C {}"))]

theorem closure_shared :
    ∃ tree, (shared.closure { followReexports := true } "index.ts" ["Left", "Right"]).1 =
        .ok tree ∧
      ∃ first ∈ tree.closures[2]?, ∃ second ∈ tree.closures[4]?,
        shared.canonical first.file = "/w/shared.ts" ∧
        shared.canonical second.file = "/w/shared.ts" ∧
        shared.Lists first "/w/shared.ts" 2 ∧ shared.Lists second "/w/shared.ts" 2 ∧
        ∃ s, shared.readSource "/w/shared.ts" = .ok s ∧
          ∃ e ∈ s.contents.table.get? 2, e.name = "C" := by
  decide +kernel

theorem listed_again_shared :
    ∃ tree, (shared.closure { followReexports := true } "index.ts" ["Left", "Right"]).1 =
        .ok tree ∧
      ∃ first ∈ tree.closures[2]?, ∃ second ∈ tree.closures[4]?,
        shared.Lists first "/w/shared.ts" 2 ∧ shared.Lists second "/w/shared.ts" 2 ∧
        (∀ name ∈ second.roots, name ∉ first.declarationNames) ∧
        ∃ s, shared.readSource "/w/shared.ts" = .ok s ∧ s.Reachable [] first.roots "C" ∧
          ∃ other, other ≠ "C" ∧ s.Reachable [] second.roots other ∧ s.Refers other "C" := by
  obtain ⟨tree, result, first, at_first, second, at_second, file, file', listed, listed', s, read,
    e, found, named⟩ := closure_shared
  have pairs := listed_again_iff (by decide +kernel) rfl result
  obtain ⟨bound, rfl⟩ := List.getElem?_eq_some_iff.mp at_first
  obtain ⟨bound', rfl⟩ := List.getElem?_eq_some_iff.mp at_second
  have ⟨asked, again⟩ := List.pairwise_iff_getElem.mp pairs 2 4 bound bound' (by decide)
    (file.trans file'.symm)
  rw [file, file'] at again
  have ⟨_, reachable, other, distinct, reachable', _, refers⟩ :=
    (again s read 2 e found).mp ⟨listed, listed'⟩
  rw [named] at reachable distinct refers
  exact ⟨tree, result, _, at_first, _, at_second, listed, listed',
    fun name root => (asked name root).2, s, read, reachable, other, distinct, reachable', refers⟩

/-- A declaration may be listed by two closures of its file. -/
theorem shared_part_listed_twice :
    ∃ tree, (shared.closure { followReexports := true } "index.ts" ["Left", "Right"]).1 =
        .ok tree ∧
      ¬ tree.closures.Pairwise fun first second => ∀ file position,
        ¬ (shared.Lists first file position ∧ shared.Lists second file position) := by
  obtain ⟨tree, result, first, at_first, second, at_second, _, _, listed, listed', _⟩ :=
    closure_shared
  refine ⟨tree, result, ?_⟩
  intro apart
  obtain ⟨bound, rfl⟩ := List.getElem?_eq_some_iff.mp at_first
  obtain ⟨bound', rfl⟩ := List.getElem?_eq_some_iff.mp at_second
  exact List.pairwise_iff_getElem.mp apart 2 4 bound bound' (by decide) _ _ ⟨listed, listed'⟩

end TypeClosure.FileTree

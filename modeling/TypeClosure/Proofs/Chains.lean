import Mathlib.Data.Set.Finite.Basic
import Mathlib.Order.WellFounded
import TypeClosure.Proofs.CrossFile

/-!
Chains of forwarded names. Each forwarded name stands for one name of another file, which may be
forwarded again. A followed closure without missing roots has found the end of a chain, unless the
chain leads back to itself.
-/

namespace TypeClosure

open Relation

section Deterministic

variable {α : Type} {step : α → α → Prop}

/-- What follows a state on a cycle is on a cycle. -/
theorem transGen_self_of_step (unique : Relator.RightUnique step) {p q : α}
    (cycle : TransGen step p p) (next : step p q) : TransGen step q q := by
  obtain ⟨r, first, rest⟩ := TransGen.head'_iff.mp cycle
  cases unique first next
  exact TransGen.tail' rest next

theorem transGen_self_of_reflTransGen (unique : Relator.RightUnique step) {p q : α}
    (cycle : TransGen step p p) (later : ReflTransGen step p q) : TransGen step q q := by
  induction later with
  | refl => exact cycle
  | tail _ next ih => exact transGen_self_of_step unique ih next

/-- Where each state has at most one next state, and finitely many are reached, an end is reached
unless a cycle is. -/
theorem exists_end_iff_no_cycle (unique : Relator.RightUnique step) {start : α}
    {ends : α → Prop} (finite : {p | ReflTransGen step start p}.Finite)
    (progress : ∀ p, ReflTransGen step start p → ends p ∨ ∃ q, step p q)
    (stops : ∀ p, ends p → ∀ q, ¬ step p q) :
    (∃ p, ReflTransGen step start p ∧ ends p) ↔
      ¬ ∃ p, ReflTransGen step start p ∧ TransGen step p p := by
  constructor
  · rintro ⟨p, reached, final⟩ ⟨q, reached', cycle⟩
    rcases ReflTransGen.total_of_right_unique unique reached reached' with later | earlier
    · rcases ReflTransGen.cases_head later with rfl | ⟨r, next, _⟩
      · obtain ⟨r, next, _⟩ := TransGen.head'_iff.mp cycle
        exact stops p final r next
      · exact stops p final r next
    · have cycle' := transGen_self_of_reflTransGen unique cycle earlier
      obtain ⟨r, next, _⟩ := TransGen.head'_iff.mp cycle'
      exact stops p final r next
  · intro acyclic
    -- Going on is well-founded on the finitely many states that are reached.
    have : Finite {p | ReflTransGen step start p} := finite
    let later (p q : {p | ReflTransGen step start p}) : Prop := TransGen step q.1 p.1
    have : IsTrans _ later := ⟨fun _ _ _ first second => second.trans first⟩
    have : Std.Irrefl later := ⟨fun p cycle => acyclic ⟨p.1, p.2, cycle⟩⟩
    obtain ⟨⟨p, reached⟩, _, last⟩ := (Finite.wellFounded_of_trans_of_irrefl later).has_min
      Set.univ ⟨⟨start, .refl⟩, trivial⟩
    rcases progress p reached with final | ⟨q, next⟩
    · exact ⟨p, reached, final⟩
    · exact absurd (TransGen.single next) (last ⟨q, reached.tail next⟩ trivial)

end Deterministic

namespace FileTree

variable {t : FileTree} {options : ClosureOptions} {path : String} {requested : List String}
  {tree : ClosureTree}

/-- One step of a chain, from a name of a file to the one that it stands for. -/
def Leads (t : FileTree) (options : ClosureOptions) (origin target : String × String) : Prop :=
  t.Forwards options origin.1 origin.2 target.1 target.2

instance (origin target : String × String) : Decidable (t.Leads options origin target) :=
  inferInstanceAs (Decidable (t.Forwards options origin.1 origin.2 target.1 target.2))

theorem ForwardedBy.unique {file name : String} {r r' : Reexport}
    (first : t.ForwardedBy options file name r) (second : t.ForwardedBy options file name r') :
    r = r' := by
  obtain ⟨s, read, _, _, found⟩ := first
  obtain ⟨s', read', _, _, found'⟩ := second
  cases Except.ok.inj (read.symm.trans read')
  exact Option.some.inj (found.symm.trans found')

theorem rightUnique_leads : Relator.RightUnique (t.Leads options) := by
  rintro ⟨file, name⟩ ⟨target, origin⟩ ⟨target', origin'⟩ ⟨r, forwarded, found, same⟩
    ⟨r', forwarded', found', same'⟩
  cases forwarded.unique forwarded'
  exact Prod.ext (Option.some.inj (found.symm.trans found')) (same.symm.trans same')

/-- How the end of a chain is found: it matches an external pattern, or some node lists its
declaration, or the module of its statement among those that were not found. -/
inductive Found (t : FileTree) (options : ClosureOptions) (tree : ClosureTree) :
    String × String → Prop
  | external {file name : String} : isExternal options.externals name = true →
      Found t options tree (file, name)
  | declared {c : Closure} {file name : String} : c ∈ tree.closures → t.canonical c.file = file →
      name ∈ c.declarationNames → Found t options tree (file, name)
  | unresolved {node : ClosureTree} {file name : String} {r : Reexport} : node ∈ tree.nodes →
      t.canonical node.own.file = file → t.ForwardedBy options file name r →
      r.module ∈ node.unresolved → Found t options tree (file, name)

theorem demanded_of_chain {root : String}
    (start : t.Requested (t.canonical path) requested root) {pair : String × String}
    (chain : ReflTransGen (t.Leads options) (t.canonical path, root) pair) :
    t.Demanded options (t.canonical path) requested pair.1 pair.2 := by
  induction chain with
  | refl => exact .inl ⟨rfl, start⟩
  | tail _ leads ih => exact .inr ⟨_, _, ih.needed, leads⟩

section Chains

variable (anchored : t.Anchored) (follows : options.followReexports = true)
  (plain : ∀ e ∈ options.moduleExtensions, Path.isAbsolute e = false)
  (result : (t.closure options path requested).1 = .ok tree)

include anchored follows plain result

theorem not_leads_of_found {pair next : String × String}
    (found : t.Found options tree pair) : ¬ t.Leads options pair next := by
  rintro ⟨r, forwarded, resolved, _⟩
  have ⟨s, read, allowed, undeclared, first⟩ := forwarded
  cases found with
  | external external =>
      rw [external] at allowed
      contradiction
  | declared listed same declared =>
      obtain ⟨_, _, s', read', declares⟩ :=
        (declared_iff_needed anchored follows plain result).mp ⟨_, listed, same, declared⟩
      cases Except.ok.inj (read.symm.trans read')
      exact undeclared declares
  | unresolved member same forwarded' unfound =>
      subst same
      cases forwarded.unique forwarded'
      have built := built_of_mem_nodes anchored follows plain result member
      rw [built.moduleFile?_of_mem_unresolved anchored plain forwarded unfound] at resolved
      contradiction

theorem finite_chain {root : String} (start : t.Requested (t.canonical path) requested root) :
    {pair | ReflTransGen (t.Leads options) (t.canonical path, root) pair}.Finite := by
  let listed := tree.nodes.flatMap fun node =>
    (node.own.roots ++ node.own.declarationNames).map (t.canonical node.own.file, ·)
  refine (List.finite_toSet listed).subset ?_
  rintro ⟨file, name⟩ chain
  obtain ⟨node, member, covers, found⟩ := exists_listed_of_demanded anchored follows plain result
    (demanded_of_chain start chain)
  refine List.mem_flatMap.mpr ⟨node, member, List.mem_map.mpr ⟨name, ?_, ?_⟩⟩
  · exact List.mem_append.mpr found
  · exact Prod.ext covers.1 rfl

theorem found_or_leads (success : tree.hasMissingRoots = false) {file name : String}
    (demanded : t.Demanded options (t.canonical path) requested file name) :
    t.Found options tree (file, name) ∨ ∃ next, t.Leads options (file, name) next := by
  obtain ⟨node, member, covers, _⟩ :=
    exists_listed_of_demanded anchored follows plain result demanded
  obtain ⟨s, s', roots, read, read', same, eq, reachable⟩ := covers.source anchored
  by_cases external : isExternal options.externals name = true
  · exact .inl (.external external)
  · rw [Bool.not_eq_true] at external
    by_cases declares : s'.Declares name
    · have listed := (covers.mem_declarationNames_iff anchored).mpr
        ⟨external, s', read', declares⟩
      exact .inl (.declared (ClosureTree.mem_closures.mpr ⟨node, member, rfl⟩) covers.1 listed)
    · cases first : s'.contents.reexportOf? name with
      | none =>
          obtain ⟨c, listed, _, missing⟩ := (missing_iff_demanded anchored follows plain result).mpr
            ⟨demanded, external, s', read', declares, first⟩
          have some : name ∈ tree.missingRoots := List.mem_flatMap.mpr ⟨c, listed, missing⟩
          rw [ClosureTree.hasMissingRoots, Bool.not_eq_false', List.isEmpty_iff] at success
          rw [success] at some
          exact absurd some List.not_mem_nil
      | some position =>
          obtain ⟨r, stated⟩ := Contents.getElem?_of_reexportOf? first
          have forwarded : t.ForwardedBy options file name r :=
            ⟨s', read', external, declares, by rw [first]; exact stated⟩
          cases resolved : t.moduleFile? options.moduleExtensions file r.module with
          | some target => exact .inr ⟨(target, _), r, forwarded, resolved, rfl⟩
          | none =>
              have built := built_of_mem_nodes anchored follows plain result member
              have unfound := built.mem_unresolved anchored plain covers forwarded resolved
              exact .inl (.unresolved member covers.1 forwarded unfound)

end Chains

/-- Where following succeeds without missing roots, the end of a root's chain has been found if
and only if the chain does not lead back to itself. -/
theorem found_iff_no_cycle (anchored : t.Anchored) (follows : options.followReexports = true)
    (plain : ∀ e ∈ options.moduleExtensions, Path.isAbsolute e = false)
    (result : (t.closure options path requested).1 = .ok tree)
    (success : tree.hasMissingRoots = false) {root : String}
    (start : t.Requested (t.canonical path) requested root) :
    (∃ pair, ReflTransGen (t.Leads options) (t.canonical path, root) pair ∧
        t.Found options tree pair) ↔
      ¬ ∃ pair, ReflTransGen (t.Leads options) (t.canonical path, root) pair ∧
        TransGen (t.Leads options) pair pair := by
  refine exists_end_iff_no_cycle rightUnique_leads
    (finite_chain anchored follows plain result start) ?_ ?_
  · rintro ⟨file, name⟩ chain
    exact found_or_leads anchored follows plain result success
      (demanded_of_chain start chain)
  · intro pair found next
    exact not_leads_of_found anchored follows plain result found

theorem found_of_renamed :
    ∃ tree, (renamed.closure { followReexports := true } "index.ts" ["Part"]).1 = .ok tree ∧
      tree.hasMissingRoots = false ∧
      renamed.Requested (renamed.canonical "index.ts") ["Part"] "Part" ∧
      ¬ ∃ pair, ReflTransGen (renamed.Leads { followReexports := true })
          (renamed.canonical "index.ts", "Part") pair ∧
        TransGen (renamed.Leads { followReexports := true }) pair pair := by
  obtain ⟨tree, result, success, c, member, file, listed⟩ : ∃ tree,
      (renamed.closure { followReexports := true } "index.ts" ["Part"]).1 = .ok tree ∧
        tree.hasMissingRoots = false ∧ ∃ c ∈ tree.closures,
          renamed.canonical c.file = "/w/parts.ts" ∧ "Piece" ∈ c.declarationNames := by
    decide +kernel
  have start : renamed.Requested (renamed.canonical "index.ts") ["Part"] "Part" := by
    decide +kernel
  have leads : renamed.Leads { followReexports := true } (renamed.canonical "index.ts", "Part")
      ("/w/parts.ts", "Piece") := by
    decide +kernel
  have found := found_iff_no_cycle (by decide +kernel) rfl (by decide) result success start
  exact ⟨tree, result, success, start, found.mp ⟨_, .single leads, .declared member file listed⟩⟩

/-- Two files that forward a name to each other. -/
def looped : FileTree where
  current := ["w"]
  entries := [(["w"], .directory),
    (["w", "a.ts"], .file (some "export { A } from './b';")),
    (["w", "b.ts"], .file (some "export { A } from './a';"))]

/-- A name that is found nowhere is not missing, if its chain leads back to itself. -/
theorem cycle_not_reported :
    ∃ tree, (looped.closure { followReexports := true } "a.ts" ["A"]).1 = .ok tree ∧
      tree.hasMissingRoots = false ∧
      looped.Requested (looped.canonical "a.ts") ["A"] "A" ∧
      ¬ ∃ pair, ReflTransGen (looped.Leads { followReexports := true })
          (looped.canonical "a.ts", "A") pair ∧
        looped.Found { followReexports := true } tree pair := by
  obtain ⟨tree, result, success⟩ : ∃ tree,
      (looped.closure { followReexports := true } "a.ts" ["A"]).1 = .ok tree ∧
        tree.hasMissingRoots = false := by
    decide +kernel
  have there : looped.Leads { followReexports := true } (looped.canonical "a.ts", "A")
      ("/w/b.ts", "A") := by
    decide +kernel
  have back : looped.Leads { followReexports := true } ("/w/b.ts", "A")
      (looped.canonical "a.ts", "A") := by
    decide +kernel
  refine ⟨tree, result, success, by decide +kernel, ?_⟩
  rintro ⟨pair, chain, found⟩
  have cycle := transGen_self_of_reflTransGen rightUnique_leads
    (.tail (.single there) back) chain
  obtain ⟨next, leads, _⟩ := TransGen.head'_iff.mp cycle
  exact not_leads_of_found (by decide +kernel) rfl (by decide) result found leads

end FileTree

end TypeClosure

import TypeClosure.Proofs.Accounting
import TypeClosure.Proofs.Following

/-!
Which names of which files are needed: the roots, what needed declarations refer to, and the
origins of needed names that are forwarded. A followed closure has these names in its nodes, and
no others.
-/

namespace TypeClosure

namespace Source

variable {s s' : Source} {externals : List Glob.Pattern} {roots : List String}

theorem refers_congr (same : s'.contents = s.contents) {name other : String} :
    s'.Refers name other ↔ s.Refers name other := by
  rw [refers_iff, refers_iff, same]

theorem declares_congr (same : s'.contents = s.contents) {name : String} :
    s'.Declares name ↔ s.Declares name := by
  rw [declares_iff, declares_iff, same]

theorem Reachable.congr (same : s'.contents = s.contents) {name : String}
    (reachable : s'.Reachable externals roots name) : s.Reachable externals roots name := by
  induction reachable with
  | root member => exact .root member
  | reference _ allowed refers ih =>
      exact .reference ih allowed ((refers_congr same).mp refers)

end Source

theorem originOf_restrictTo {r : Reexport} {names : List String} {name : String}
    (member : name ∈ names) : (r.restrictTo names).originOf name = r.originOf name := by
  unfold Reexport.originOf Reexport.restrictTo
  cases found : (names.map fun name => (⟨name, r.originOf name⟩ : Binding)).find?
      (·.exported == name) with
  | none =>
      have := List.find?_eq_none.mp found ⟨name, r.originOf name⟩ (List.mem_map_of_mem member)
      simp at this
  | some b =>
      obtain ⟨other, _, rfl⟩ := List.mem_map.mp (List.mem_of_find?_eq_some found)
      have same : other = name := by simpa using List.find?_some found
      rw [same]
      rfl

namespace FileTree

variable {t : FileTree} {options : ClosureOptions} {start : String} {requested : List String}

/-- A name that a file neither declares nor counts as declared elsewhere is forwarded by the first
statement that has it. -/
def ForwardedBy (t : FileTree) (options : ClosureOptions) (file name : String) (r : Reexport) :
    Prop :=
  ∃ s, t.readSource file = .ok s ∧ isExternal options.externals name = false ∧
    ¬ s.Declares name ∧ (s.contents.reexportOf? name).bind (s.contents.reexports[·]?) = some r

/-- A forwarded name stands for a name of another file, if its statement leads there. -/
def Forwards (t : FileTree) (options : ClosureOptions) (file name target origin : String) : Prop :=
  ∃ r, t.ForwardedBy options file name r ∧
    t.moduleFile? options.moduleExtensions file r.module = some target ∧ r.originOf name = origin

/-- The names that are asked for in the first file. -/
def Requested (t : FileTree) (start : String) (requested : List String) (name : String) : Prop :=
  ∃ s, t.readSource start = .ok s ∧
    name ∈ if requested.isEmpty then s.contents.exportedNames else requested

/-- The names that a request leads to, each with its file by its one spelling. A name that matches
an external pattern is needed, but leads no further. -/
inductive Needed (t : FileTree) (options : ClosureOptions) (start : String)
    (requested : List String) : String → String → Prop
  | root {name : String} : t.Requested start requested name →
      Needed t options start requested start name
  | reference {file name other : String} {s : Source} :
      Needed t options start requested file name → isExternal options.externals name = false →
      t.readSource file = .ok s → s.Refers name other →
      Needed t options start requested file other
  | forwarded {file name target origin : String} :
      Needed t options start requested file name → t.Forwards options file name target origin →
      Needed t options start requested target origin

/-- The names that are looked up in a file as roots. -/
def Demanded (t : FileTree) (options : ClosureOptions) (start : String) (requested : List String)
    (file name : String) : Prop :=
  (file = start ∧ t.Requested start requested name) ∨
    ∃ file' name', t.Needed options start requested file' name' ∧
      t.Forwards options file' name' file name

theorem Demanded.needed {file name : String}
    (demanded : t.Demanded options start requested file name) :
    t.Needed options start requested file name := by
  rcases demanded with ⟨rfl, root⟩ | ⟨_, _, needed, forwards⟩
  · exact .root root
  · exact .forwarded needed forwards

/-! ### Decisions -/

instance {ε α : Type} (x : Except ε α) (p : α → Prop) [DecidablePred p] :
    Decidable (∃ a, x = .ok a ∧ p a) :=
  match x with
  | .ok a => decidable_of_iff (p a) (by simp)
  | .error _ => isFalse (by simp)

instance (s : Source) (name : String) : Decidable (s.Declares name) :=
  inferInstanceAs (Decidable (∃ d ∈ s.listing.declarations, d.name = name))

instance (name : String) : Decidable (t.Requested start requested name) :=
  inferInstanceAs (Decidable (∃ s, t.readSource start = .ok s ∧
    name ∈ if requested.isEmpty then s.contents.exportedNames else requested))

instance (file name target origin : String) :
    Decidable (t.Forwards options file name target origin) :=
  decidable_of_iff (∃ s, t.readSource file = .ok s ∧ isExternal options.externals name = false ∧
      ¬ s.Declares name ∧ ∃ r ∈ (s.contents.reexportOf? name).bind (s.contents.reexports[·]?),
        t.moduleFile? options.moduleExtensions file r.module = some target ∧
        r.originOf name = origin) (by
    constructor
    · rintro ⟨s, read, allowed, undeclared, r, first, found, same⟩
      exact ⟨r, ⟨s, read, allowed, undeclared, first⟩, found, same⟩
    · rintro ⟨r, ⟨s, read, allowed, undeclared, first⟩, found, same⟩
      exact ⟨s, read, allowed, undeclared, r, first, found, same⟩)

/-! ### Spellings -/

section Spellings

variable (anchored : t.Anchored)

include anchored

theorem readSource_canonical {path : String} {s : Source}
    (read : t.readSource path = .ok s) :
    ∃ s', t.readSource (t.canonical path) = .ok s' ∧ s'.contents = s.contents := by
  obtain ⟨place, found⟩ := placeOfFile?_of_readSource read
  have located := (placeOfFile?_eq_some.mp found).1
  exact readSource_congr anchored located (locate_canonical anchored located) read

theorem contents_of_readSource_canonical {path : String} {s s' : Source}
    (read : t.readSource path = .ok s) (read' : t.readSource (t.canonical path) = .ok s') :
    s'.contents = s.contents := by
  obtain ⟨other, found, same⟩ := readSource_canonical anchored read
  cases Except.ok.inj (found.symm.trans read')
  exact same

theorem requested_iff_mem_rootsFor {path name : String} {s : Source}
    (read : t.readSource path = .ok s) :
    t.Requested (t.canonical path) requested name ↔ name ∈ s.contents.rootsFor requested := by
  rw [Source.mem_rootsFor]
  constructor
  · rintro ⟨s', read', member⟩
    rwa [contents_of_readSource_canonical anchored read read'] at member
  · intro member
    obtain ⟨s', read', same⟩ := readSource_canonical anchored read
    exact ⟨s', read', by rwa [same]⟩

theorem needed_of_reachable {path : String} {s : Source}
    (read : t.readSource path = .ok s) {roots : List String}
    (needed : ∀ name ∈ roots, t.Needed options start requested (t.canonical path) name)
    {name : String} (reachable : s.Reachable options.externals roots name) :
    t.Needed options start requested (t.canonical path) name := by
  obtain ⟨s', read', same⟩ := readSource_canonical anchored read
  induction reachable with
  | root member => exact needed _ member
  | reference _ allowed refers ih =>
      exact .reference ih allowed read' ((Source.refers_congr same).mpr refers)

/-! ### What a closure takes from other files -/

variable (plain : ∀ e ∈ options.moduleExtensions, Path.isAbsolute e = false)

include plain

theorem moduleFile?_canonical {path : String} {s : Source}
    (read : t.readSource path = .ok s) {r : Reexport} (member : r ∈ s.contents.reexports) :
    t.moduleFile? options.moduleExtensions (t.canonical path) r.module =
      t.moduleFile? options.moduleExtensions path r.module := by
  obtain ⟨place, found⟩ := placeOfFile?_of_readSource read
  obtain ⟨located, file⟩ := placeOfFile?_eq_some.mp found
  exact moduleFile?_congr anchored (locate_canonical anchored located) located file
    (s.isRelative_of_mem_reexports member) plain

theorem forwards_of_mem_reexports {path : String} {s : Source}
    (read : t.readSource path = .ok s) {roots : List String} {r : Reexport}
    (member : r ∈ (s.closure options.externals roots).reexports) {name : String}
    (named : name ∈ r.names) {target : String}
    (found : t.moduleFile? options.moduleExtensions path r.module = some target) :
    s.Reachable options.externals (s.contents.rootsFor roots) name ∧
      t.Forwards options (t.canonical path) name target (r.originOf name) := by
  obtain ⟨position, statement, stated, _, rfl⟩ := Source.mem_reexports_closure.mp member
  rw [Reexport.names_restrictTo] at named
  obtain ⟨reachable, standing⟩ := Source.mem_namesForwardedBy.mp named
  obtain ⟨allowed, undeclared, first⟩ := Source.standing_eq_forwarded.mp standing
  obtain ⟨s', read', same⟩ := readSource_canonical anchored read
  refine ⟨reachable, statement, ⟨s', read', allowed, ?_, ?_⟩, ?_, ?_⟩
  · rwa [Source.declares_congr same]
  · rw [same, first]
    exact stated
  · rw [moduleFile?_canonical anchored plain read (List.mem_of_getElem? stated)]
    exact found
  · rw [originOf_restrictTo named]

/-- A forwarded name that a closure comes across stands in the entry of its statement. -/
theorem mem_reexports_of_forwardedBy {path : String} {s : Source}
    (read : t.readSource path = .ok s) {roots : List String} {name : String} {r : Reexport}
    (reachable : s.Reachable options.externals (s.contents.rootsFor roots) name)
    (forwarded : t.ForwardedBy options (t.canonical path) name r) :
    ∃ needed ∈ (s.closure options.externals roots).reexports, name ∈ needed.names ∧
      needed.module = r.module ∧ needed.originOf name = r.originOf name ∧
      t.moduleFile? options.moduleExtensions (t.canonical path) r.module =
        t.moduleFile? options.moduleExtensions path r.module := by
  obtain ⟨s', read', allowed, undeclared, found⟩ := forwarded
  obtain ⟨position, first, stated⟩ := Option.bind_eq_some_iff.mp found
  have same := contents_of_readSource_canonical anchored read read'
  rw [Source.declares_congr same] at undeclared
  rw [same] at first stated
  obtain ⟨statement, stated', needed, member, named, eq⟩ := Source.exists_mem_reexports_closure
    reachable (Source.standing_eq_forwarded.mpr ⟨allowed, undeclared, first⟩)
  cases Option.some.inj (stated.symm.trans stated')
  refine ⟨needed, member, named, ?_, ?_,
    moduleFile?_canonical anchored plain read (List.mem_of_getElem? stated)⟩
  · rw [eq]
    rfl
  · rw [eq]
    exact originOf_restrictTo named

theorem mem_reexports_of_forwards {path : String} {s : Source}
    (read : t.readSource path = .ok s) {roots : List String} {name target origin : String}
    (reachable : s.Reachable options.externals (s.contents.rootsFor roots) name)
    (forwards : t.Forwards options (t.canonical path) name target origin) :
    ∃ r ∈ (s.closure options.externals roots).reexports, name ∈ r.names ∧
      t.moduleFile? options.moduleExtensions path r.module = some target ∧
      r.originOf name = origin := by
  obtain ⟨statement, forwarded, found, rfl⟩ := forwards
  obtain ⟨r, member, named, module, origin, spelled⟩ :=
    mem_reexports_of_forwardedBy anchored plain read reachable forwarded
  exact ⟨r, member, named, by rw [module, ← spelled, found], origin⟩

theorem propagates_demanded : t.Propagates options (t.Demanded options start requested) := by
  intro path s roots read demanded r member name named file found
  obtain ⟨reachable, forwards⟩ := forwards_of_mem_reexports anchored plain read member named found
  exact .inr ⟨_, _, needed_of_reachable anchored read
    (fun name member => (demanded name member).needed) reachable, forwards⟩

end Spellings

end FileTree

end TypeClosure

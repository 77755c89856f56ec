import TypeClosure.Proofs.FileClosure

/-! Each name that a closure comes across stands in one place of it: among its declarations, its
external names, the names of one forwarding statement, or its missing roots. -/

namespace TypeClosure

namespace Closure

/-- Where a closure may speak of a name. -/
inductive Place where
  | declarations
  | external
  /-- The entry with this index among the statements that forward names. -/
  | reexport (index : Nat)
  | missingRoots
deriving Repr, DecidableEq

def namesAt (c : Closure) : Place → List String
  | .declarations => c.declarationNames
  | .external => c.external
  | .reexport index => (c.reexports[index]?.map Reexport.names).getD []
  | .missingRoots => c.missingRoots

theorem mem_namesAt_reexport {c : Closure} {index : Nat} {name : String} :
    name ∈ c.namesAt (.reexport index) ↔ ∃ r, c.reexports[index]? = some r ∧ name ∈ r.names := by
  cases found : c.reexports[index]? with
  | none => simp [namesAt, found]
  | some r => simp [namesAt, found]

/-- A closure comes across its roots and the references of the declarations that it lists. -/
def Involves (s : Source) (c : Closure) (name : String) : Prop :=
  name ∈ c.roots ∨ ∃ declared ∈ c.declarationNames, s.Refers declared name

/-- The place of a name follows from what it is to the file: an external pattern comes before a
declaration, a declaration before the first statement that forwards the name, and this before a
root that is found nowhere. -/
structure Places (s : Source) (externals : List Glob.Pattern) (c : Closure) (name : String) :
    Prop where
  external : isExternal externals name = true → name ∈ c.external
  declared : isExternal externals name = false → s.Declares name → name ∈ c.declarationNames
  forwarded : isExternal externals name = false → ¬ s.Declares name →
    ∀ position, s.contents.reexportOf? name = some position →
      ∃ statement, s.contents.reexports[position]? = some statement ∧
        ∃ r ∈ c.reexports, name ∈ r.names ∧ r = statement.restrictTo r.names
  missing : isExternal externals name = false → ¬ s.Declares name →
    s.contents.reexportOf? name = none → name ∈ c.roots → name ∈ c.missingRoots
  elsewhere : isExternal externals name = false → ¬ s.Declares name →
    s.contents.reexportOf? name = none → name ∉ c.roots → name ∈ c.external

end Closure

namespace Source

variable {s : Source} {externals : List Glob.Pattern} {requested : List String} {name : String}

theorem involves_closure_iff :
    (s.closure externals requested).Involves s name ↔
      s.Reachable externals (s.contents.rootsFor requested) name := by
  constructor
  · rintro (root | ⟨declared, listed, refers⟩)
    · exact .root root
    · obtain ⟨reachable, standing⟩ := mem_declarationNames_closure.mp listed
      exact .reference reachable (standing_eq_declared.mp standing).1 refers
  · intro reachable
    cases reachable with
    | root member => exact .inl member
    | reference reachable allowed refers =>
        refine .inr ⟨_, mem_declarationNames_closure.mpr ⟨reachable, ?_⟩, refers⟩
        exact standing_of_declares allowed refers.declares

/-- What a name is to the file when a closure has it at some place. -/
def standsAt (standing : Standing) : Closure.Place → Prop
  | .declarations => standing = .declared
  | .external => standing = .external
  | .reexport _ => ∃ position, standing = .forwarded position
  | .missingRoots => standing = .missing

theorem reachable_of_mem_namesAt {place : Closure.Place}
    (member : name ∈ (s.closure externals requested).namesAt place) :
    s.Reachable externals (s.contents.rootsFor requested) name ∧
      standsAt (s.contents.standing externals (s.contents.rootsFor requested) name) place := by
  cases place with
  | declarations => exact mem_declarationNames_closure.mp member
  | external => exact mem_external_closure.mp member
  | missingRoots => exact mem_missingRoots_closure.mp member
  | reexport index =>
      obtain ⟨r, found, named⟩ := Closure.mem_namesAt_reexport.mp member
      obtain ⟨position, statement, _, _, rfl⟩ :=
        mem_reexports_closure.mp (List.mem_of_getElem? found)
      rw [Reexport.names_restrictTo, mem_namesForwardedBy] at named
      exact ⟨named.1, position, named.2⟩

theorem exists_place (reachable : s.Reachable externals (s.contents.rootsFor requested) name) :
    ∃ place, name ∈ (s.closure externals requested).namesAt place := by
  cases standing : s.contents.standing externals (s.contents.rootsFor requested) name with
  | declared => exact ⟨.declarations, mem_declarationNames_closure.mpr ⟨reachable, standing⟩⟩
  | external => exact ⟨.external, mem_external_closure.mpr ⟨reachable, standing⟩⟩
  | missing => exact ⟨.missingRoots, mem_missingRoots_closure.mpr ⟨reachable, standing⟩⟩
  | forwarded position =>
      obtain ⟨_, _, r, member, named, _⟩ := exists_mem_reexports_closure reachable standing
      obtain ⟨index, found⟩ := List.mem_iff_getElem?.mp member
      exact ⟨.reexport index, Closure.mem_namesAt_reexport.mpr ⟨r, found, named⟩⟩

/-- Two entries of a closure's forwarding statements have no name in common. -/
theorem eq_of_mem_reexports {first second : Nat} {r r' : Reexport}
    (at_first : (s.closure externals requested).reexports[first]? = some r) (named : name ∈ r.names)
    (at_second : (s.closure externals requested).reexports[second]? = some r')
    (named' : name ∈ r'.names) : first = second := by
  have nodup : ((s.closure externals requested).reexports.flatMap Reexport.names).Nodup :=
    nodup_names_reexports_closure
  have disjoint := (List.nodup_flatten.mp (List.flatMap_def ▸ nodup)).2
  have apart {i j : Nat} {a b : Reexport}
      (at_i : (s.closure externals requested).reexports[i]? = some a)
      (at_j : (s.closure externals requested).reexports[j]? = some b) (less : i < j)
      (in_a : name ∈ a.names) (in_b : name ∈ b.names) : False := by
    obtain ⟨bound_i, rfl⟩ := List.getElem?_eq_some_iff.mp at_i
    obtain ⟨bound_j, rfl⟩ := List.getElem?_eq_some_iff.mp at_j
    have := List.pairwise_iff_getElem.mp disjoint i j (by simpa using bound_i)
      (by simpa using bound_j) less
    exact this (by simpa using in_a) (by simpa using in_b)
  rcases Nat.lt_trichotomy first second with less | same | greater
  · exact (apart at_first at_second less named named').elim
  · exact same
  · exact (apart at_second at_first greater named' named).elim

theorem eq_or_reexports_of_standsAt {standing : Standing} {place other : Closure.Place}
    (stands : standsAt standing place) (stands' : standsAt standing other) :
    place = other ∨ ∃ first second, place = .reexport first ∧ other = .reexport second := by
  cases place <;> cases other <;> simp_all [standsAt]

theorem place_unique {place other : Closure.Place}
    (member : name ∈ (s.closure externals requested).namesAt place)
    (member' : name ∈ (s.closure externals requested).namesAt other) : place = other := by
  have stands := (reachable_of_mem_namesAt member).2
  have stands' := (reachable_of_mem_namesAt member').2
  rcases eq_or_reexports_of_standsAt stands stands' with same | ⟨first, second, rfl, rfl⟩
  · exact same
  · obtain ⟨r, found, named⟩ := Closure.mem_namesAt_reexport.mp member
    obtain ⟨r', found', named'⟩ := Closure.mem_namesAt_reexport.mp member'
    rw [eq_of_mem_reexports found named found' named']

theorem places_closure (reachable : s.Reachable externals (s.contents.rootsFor requested) name) :
    (s.closure externals requested).Places s externals name where
  external := fun external =>
    mem_external_closure.mpr ⟨reachable, standing_of_isExternal external⟩
  declared := fun allowed declared =>
    mem_declarationNames_closure.mpr ⟨reachable, standing_of_declares allowed declared⟩
  forwarded := fun allowed undeclared position found =>
    exists_mem_reexports_closure reachable
      (standing_eq_forwarded.mpr ⟨allowed, undeclared, found⟩)
  missing := fun allowed undeclared unforwarded root =>
    mem_missingRoots_closure.mpr ⟨reachable,
      standing_eq_missing.mpr ⟨allowed, undeclared, unforwarded, root⟩⟩
  elsewhere := by
    intro allowed undeclared unforwarded notRoot
    refine mem_external_closure.mpr ⟨reachable, ?_⟩
    rw [standing_of_not_declares allowed undeclared, unforwarded]
    exact if_neg notRoot

/-- Each name that a closure comes across stands in exactly one place of it, the one that follows
from what the name is to the file; no other names stand there, and none of them twice. -/
theorem closure_accounts (s : Source) (externals : List Glob.Pattern) (requested : List String) :
    let c := s.closure externals requested
    (∀ name, name ∈ c.roots ↔
      name ∈ if requested.isEmpty then s.contents.exportedNames else requested) ∧
    (∀ name, c.Involves s name → ∃! place, name ∈ c.namesAt place) ∧
    (∀ place name, name ∈ c.namesAt place → c.Involves s name) ∧
    c.external.Nodup ∧ c.missingRoots.Nodup ∧ (c.reexports.flatMap Reexport.names).Nodup ∧
    ∀ name, c.Involves s name → c.Places s externals name := by
  refine ⟨fun _ => mem_rootsFor, ?_, ?_, ?_, ?_, nodup_names_reexports_closure, ?_⟩
  · intro name involved
    obtain ⟨place, member⟩ := exists_place (involves_closure_iff.mp involved)
    exact ⟨place, member, fun other member' => place_unique member' member⟩
  · intro place name member
    exact involves_closure_iff.mpr (reachable_of_mem_namesAt member).1
  · change (s.contents.worklist externals (s.contents.rootsFor requested)).external.Nodup
    rw [worklist_faithful.external_eq]
    exact worklist_faithful.nodup.filter _
  · change (s.contents.worklist externals (s.contents.rootsFor requested)).missing.Nodup
    rw [worklist_faithful.missing_eq]
    exact worklist_faithful.nodup.filter _
  · intro name involved
    exact places_closure (involves_closure_iff.mp involved)

end Source

end TypeClosure

import TypeClosure.Proofs.FileTree.Components
import TypeClosure.Proofs.FileTree.Resolution

/-! Where a path leads, if it leads anywhere, is said by its components alone. -/

namespace TypeClosure.FileTree

/-- Where a component leads from a place. -/
def Component.next (place : List String) : Component → List String
  | .root => []
  | .here => place
  | .up => place.dropLast
  | .name last => place ++ [last]

open TypeClosure.FileTree.Path

variable {t : FileTree} {path other : String} {place : List String}

theorem eq_of_walk {next : List String} {ss : List (List Char)}
    (walked : t.walk place ss = .ok next) :
    next = (componentsOf ss).foldl Component.next place := by
  induction ss generalizing place with
  | nil =>
      cases walked
      rfl
  | cons s ss ih =>
      obtain ⟨middle, first, rest⟩ := walk_cons_eq_ok.mp walked
      rw [ih rest, componentsOf_cons]
      obtain ⟨_, ⟨empty, rfl⟩ | ⟨rfl, rfl⟩ | ⟨named, notUp, rfl, _⟩⟩ := walk_step first
      · rw [if_pos empty]
      · rw [if_neg (by decide), if_pos rfl]
        rfl
      · rw [named, if_neg Bool.false_ne_true, if_neg notUp]
        rfl

theorem eq_of_locate (located : t.locate path = .ok place) :
    place = (components path).foldl Component.next t.current := by
  rw [locate_eq_walk (ne_empty_of_locate located)] at located
  rw [eq_of_walk located, components_eq, List.foldl_append, origin, front]
  congr 1
  split
  · rfl
  · split
    · rfl
    · rfl

/-- Two spellings of one path do not lead to different places. -/
theorem locate_eq_of_same {place' : List String} (same : components path = components other)
    (located : t.locate path = .ok place) (located' : t.locate other = .ok place') :
    place = place' := by
  rw [eq_of_locate located, eq_of_locate located', same]

theorem fileName?_eq_some {name : String} :
    fileName? path = some name ↔ (components path).getLast? = some (.name name) := by
  unfold fileName?
  constructor
  · intro named
    split at named
    · next last =>
        cases named
        exact last
    · cases named
  · intro last
    rw [last]

theorem isEmptySegment_of_mem_componentsOf {ss : List (List Char)} {name : String}
    (member : Component.name name ∈ componentsOf ss) : isEmptySegment name.toList = false := by
  induction ss with
  | nil => exact absurd member List.not_mem_nil
  | cons s ss ih =>
      rw [componentsOf_cons] at member
      split at member
      · exact ih member
      · next named =>
          split at member
          · exact ih (List.mem_of_ne_of_mem Component.noConfusion member)
          · rcases List.mem_cons.mp member with same | later
            · cases same
              rw [String.toList_ofList]
              exact Bool.eq_false_iff.mpr named
            · exact ih later

/-- The name of a path is neither empty nor a dot. -/
theorem isEmptySegment_of_fileName? {name : String} (named : fileName? path = some name) :
    isEmptySegment name.toList = false := by
  have member := List.mem_of_getLast? (fileName?_eq_some.mp named)
  rw [components_eq, front] at member
  apply isEmptySegment_of_mem_componentsOf
  rcases List.mem_append.mp member with first | rest
  · split at first
    · simp at first
    · split at first
      · simp at first
      · exact absurd first List.not_mem_nil
  · exact rest

/-- A path leads to a place of its own name. -/
theorem getLast?_of_locate {name : String} (located : t.locate path = .ok place)
    (named : fileName? path = some name) : place.getLast? = some name := by
  obtain ⟨init, eq⟩ := List.getLast?_eq_some_iff.mp (fileName?_eq_some.mp named)
  rw [eq_of_locate located, eq, List.foldl_append]
  exact List.getLast?_concat

/-! ### Joined paths -/

theorem components_join {directory x : String} (named : directory ≠ "")
    (relative : isAbsolute x = false) :
    components (join directory x) = components directory ++ componentsOf (segments x.toList) := by
  obtain ⟨absolute, above, some, ends, joined⟩ := segments_join named relative
  have start (ss : List (List Char)) : (above ++ ss).head? = above.head? := by
    obtain ⟨first, rest, rfl⟩ := List.exists_cons_of_ne_nil some
    rfl
  have nothing : componentsOf [[]] = [] := rfl
  rw [components_eq, components_eq, front, front, absolute, joined, start, componentsOf_append,
    ← List.append_assoc]
  rcases ends with ends | ends
  · rw [ends, start, componentsOf_append, nothing, List.append_nil]
  · rw [ends]

end TypeClosure.FileTree

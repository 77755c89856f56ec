import TypeClosure.Contents

/-! What holds of the contents of every file because each step of their collection keeps it. -/

namespace TypeClosure

variable {text : List Char} {holds : Contents → Prop}

@[simp] theorem Contents.table_mark (c : Contents) (depth : Nat) (name : String) :
    (c.mark depth name).table = c.table := by
  unfold mark
  split
  · rfl
  · rfl

@[simp] theorem Contents.table_forward (c : Contents) (depth : Nat)
    (specifiers : List ExportSpecifier) (source : Option String) :
    (c.forward depth specifiers source).table = c.table := by
  unfold forward
  split
  · split
    · rfl
    · rfl
  · rfl

/-- A property that the steps of a collection keep. -/
structure KeptByCollection (text : List Char) (holds : Contents → Prop) : Prop where
  declare : ∀ {c} d, holds c → holds (c.declare text d)
  mark : ∀ {c} depth name, holds c → holds (c.mark depth name)
  forward : ∀ {c} depth specifiers source, holds c → holds (c.forward depth specifiers source)

namespace KeptByCollection

theorem markList (kept : KeptByCollection text holds) (depth : Nat)
    (specifiers : List ExportSpecifier) {c : Contents} (hc : holds c) :
    holds (c.markList depth specifiers) := by
  unfold Contents.markList
  induction specifiers generalizing c with
  | nil => exact hc
  | cons specifier rest ih =>
      apply ih
      dsimp only
      split
      · exact kept.mark depth _ hc
      · exact hc
      · exact hc

theorem markTo (kept : KeptByCollection text holds) (depth : Nat) {c : Contents} (n : Node)
    (hc : holds c) : holds (n.markTo depth c) := by
  unfold Node.markTo
  split
  · exact kept.mark depth _ hc
  · exact hc

mutual
theorem addTo (kept : KeptByCollection text holds) (depth : Nat) {c : Contents} (n : Node)
    (hc : holds c) : holds (n.addTo text depth c) := by
  cases n with
  | type d _ => exact kept.declare d hc
  | value parts => exact kept.addAllTo depth parts hc
  | module items => exact kept.addAllTo (depth + 1) items hc
  | statement parts => exact kept.addAllTo depth parts hc
  | code code => exact kept.addCodeTo depth code hc
  | exported n => exact kept.addTo depth n (kept.markTo depth n hc)
  | exportedDefault d _ => exact kept.declare d (kept.mark depth d.name hc)
  | exportList specifiers => exact kept.markList depth specifiers hc
  | reexport specifiers source => exact kept.forward depth specifiers source hc

theorem addCodeTo (kept : KeptByCollection text holds) (depth : Nat) {c : Contents}
    (code : LocalCode) (hc : holds c) : holds (code.addTo text depth c) := by
  cases code with
  | mk scope parts =>
      cases scope with
      | accessor => exact kept.addAllTo depth parts hc
      | function => exact hc
      | arrow => exact hc
      | classBody => exact hc

theorem addAllTo (kept : KeptByCollection text holds) (depth : Nat) {c : Contents}
    (ns : List Node) (hc : holds c) : holds (Node.addAllTo text depth c ns) := by
  cases ns with
  | nil => exact hc
  | cons n ns => exact kept.addAllTo depth ns (kept.addTo depth n hc)
end

theorem contents {s : Source} (kept : KeptByCollection s.text holds) (start : holds {}) :
    holds s.contents :=
  kept.addAllTo 0 s.items start

/-- Only declarations change the table. -/
theorem of_table {P : Table → Prop} (insert : ∀ table e, P table → P (table.insert e)) :
    KeptByCollection text fun c => P c.table where
  declare := fun d hc => insert _ _ hc
  mark := by
    intro c depth name hc
    rwa [Contents.table_mark]
  forward := by
    intro c depth specifiers source hc
    rwa [Contents.table_forward]

end KeptByCollection

/-- Collecting visits nothing. -/
theorem Source.isVisited_contents (s : Source) (name : String) :
    s.contents.markers.isVisited name = false := by
  have kept : KeptByCollection s.text fun c => c.markers.visited = [] :=
    { declare := fun _ hc => hc
      mark := by
        intro c depth name hc
        simp only [Contents.mark, Markers.markExported]
        split
        · split
          · exact hc
          · exact hc
        · exact hc
      forward := by
        intro c depth specifiers source hc
        unfold Contents.forward
        split
        · split
          · exact hc
          · exact hc
        · exact hc }
  simp [Markers.isVisited, kept.contents rfl]

/-- The statements that are collected forward names from modules beside the file. -/
theorem Source.isRelative_of_mem_reexports (s : Source) {r : Reexport}
    (member : r ∈ s.contents.reexports) : isRelative r.module = true := by
  have kept : KeptByCollection s.text fun c =>
      ∀ r ∈ c.reexports, isRelative r.module = true :=
    { declare := fun _ hc => hc
      mark := by
        intro c depth name hc
        unfold Contents.mark
        split
        · exact hc
        · exact hc
      forward := by
        intro c depth specifiers source hc
        unfold Contents.forward
        split
        · split
          · next relative =>
              intro r member
              rcases List.mem_append.mp member with old | new
              · exact hc r old
              · rw [List.mem_singleton.mp new]
                exact relative.2
          · exact hc
        · exact hc }
  exact kept.contents (by simp) r member

end TypeClosure

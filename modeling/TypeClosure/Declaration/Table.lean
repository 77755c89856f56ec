import TypeClosure.Outline

/-! The type declarations of a file in the order of the text, found by their names. -/

namespace TypeClosure

/-- A declaration with the line on which it starts. -/
structure TableEntry where
  decl : TypeDecl
  line : Nat

def TableEntry.name (e : TableEntry) : String := e.decl.name

def TableEntry.kind (e : TableEntry) : TypeKind := e.decl.kind

/-- Adds a position to those of a name. -/
def addPosition (index : List (String × List Nat)) (name : String) (position : Nat) :
    List (String × List Nat) :=
  match index with
  | [] => [(name, [position])]
  | (n, ps) :: rest =>
      if n = name then (n, ps ++ [position]) :: rest
      else (n, ps) :: addPosition rest name position

theorem lookup_addPosition (index : List (String × List Nat)) (name other : String)
    (position : Nat) :
    ((addPosition index name position).lookup other).getD [] =
      (index.lookup other).getD [] ++ if name = other then [position] else [] := by
  induction index with
  | nil =>
      by_cases same : name = other
      · simp [addPosition, same]
      · simp [addPosition, same, List.lookup_cons, beq_eq_false_iff_ne.mpr (Ne.symm same)]
  | cons first rest ih =>
      obtain ⟨n, ps⟩ := first
      simp only [addPosition]
      by_cases found : n = name
      · subst found
        by_cases same : other = n
        · simp [same]
        · simp [List.lookup_cons, beq_eq_false_iff_ne.mpr same, Ne.symm same]
      · rw [if_neg found]
        by_cases same : other = n
        · subst same
          simp [Ne.symm found]
        · simp only [List.lookup_cons, beq_eq_false_iff_ne.mpr same]
          exact ih

/-- Declarations by their position, and the positions of each name. -/
structure Table where
  entries : Array TableEntry
  index : List (String × List Nat)
  lookup_index : ∀ name, (index.lookup name).getD [] =
      entries.toList.zipIdx.filterMap fun (e, position) =>
        if e.name = name then some position else none

namespace Table

def empty : Table where
  entries := #[]
  index := []
  lookup_index _ := rfl

def size (t : Table) : Nat := t.entries.size

def insert (t : Table) (e : TableEntry) : Table where
  entries := t.entries.push e
  index := addPosition t.index e.name t.entries.size
  lookup_index name := by
    rw [lookup_addPosition, t.lookup_index, Array.toList_push, List.zipIdx_append,
      List.filterMap_append]
    by_cases same : e.name = name <;> simp [same]

/-- The positions of the declarations with a name, in order. -/
def positions (t : Table) (name : String) : List Nat := (t.index.lookup name).getD []

def get? (t : Table) (position : Nat) : Option TableEntry := t.entries[position]?

def toList (t : Table) : List TableEntry := t.entries.toList

/-- The declarations with a name and their positions, in order. -/
def located (t : Table) (name : String) : List (Nat × TableEntry) :=
  (t.positions name).filterMap fun position => (t.get? position).map (position, ·)

/-- The declarations with a name, in order. -/
def named (t : Table) (name : String) : List TableEntry := (t.located name).map Prod.snd

@[simp] theorem toList_empty : empty.toList = [] := rfl

@[simp] theorem toList_insert (t : Table) (e : TableEntry) :
    (t.insert e).toList = t.toList ++ [e] := by
  simp [insert, toList]

theorem get?_eq (t : Table) (position : Nat) : t.get? position = t.toList[position]? := by
  simp [get?, toList]

theorem positions_eq (t : Table) (name : String) :
    t.positions name = t.toList.zipIdx.filterMap fun (e, position) =>
      if e.name = name then some position else none :=
  t.lookup_index name

private theorem filterMap_get?_of_found {t : Table} (name : String)
    {places : List (TableEntry × Nat)} (found : ∀ x ∈ places, t.get? x.2 = some x.1) :
    (places.filterMap fun (e, position) => if e.name = name then some position else none).filterMap
        (fun position => (t.get? position).map (position, ·)) =
      (places.filter (·.1.name = name)).map Prod.swap := by
  induction places with
  | nil => rfl
  | cons place rest ih =>
      obtain ⟨e, position⟩ := place
      have here : t.get? position = some e := found (e, position) (by simp)
      have there := ih fun x member => found x (List.mem_cons_of_mem _ member)
      by_cases same : e.name = name
      · simp [same, here, there]
      · simp [same, there]

theorem located_eq (t : Table) (name : String) :
    t.located name = (t.toList.zipIdx.filter (·.1.name = name)).map Prod.swap := by
  rw [located, positions_eq]
  apply filterMap_get?_of_found
  intro ⟨e, position⟩ member
  rw [get?_eq]
  exact List.mk_mem_zipIdx_iff_getElem?.mp member

theorem mem_located {t : Table} {name : String} {position : Nat} {e : TableEntry} :
    (position, e) ∈ t.located name ↔ t.get? position = some e ∧ e.name = name := by
  rw [located_eq, get?_eq, ← List.mk_mem_zipIdx_iff_getElem?, List.mem_map]
  constructor
  · rintro ⟨⟨other, place⟩, member, same⟩
    cases same
    simpa using member
  · intro found
    exact ⟨(e, position), by simpa using found, rfl⟩

theorem mem_positions {t : Table} {name : String} {position : Nat} :
    position ∈ t.positions name ↔ ∃ e, t.get? position = some e ∧ e.name = name := by
  simp only [positions_eq, get?_eq, List.mem_filterMap, ← List.mk_mem_zipIdx_iff_getElem?]
  constructor
  · rintro ⟨⟨e, place⟩, member, found⟩
    split at found
    · cases found
      exact ⟨e, member, ‹_›⟩
    · contradiction
  · rintro ⟨e, member, same⟩
    exact ⟨(e, position), member, by simp [same]⟩

theorem positions_eq_nil {t : Table} {name : String} :
    t.positions name = [] ↔ ∀ e ∈ t.toList, e.name ≠ name := by
  rw [List.eq_nil_iff_forall_not_mem]
  constructor
  · intro none e member same
    obtain ⟨position, found⟩ := List.mem_iff_getElem?.mp member
    exact none position (mem_positions.mpr ⟨e, by rw [get?_eq, found], same⟩)
  · intro none position member
    obtain ⟨e, found, same⟩ := mem_positions.mp member
    rw [get?_eq] at found
    exact none e (List.mem_of_getElem? found) same

theorem named_eq (t : Table) (name : String) :
    t.named name = t.toList.filter (·.name = name) := by
  rw [named, located_eq, List.map_map]
  conv => rhs; rw [← List.zipIdx_map_fst 0 t.toList, List.filter_map]
  rfl

end Table

end TypeClosure

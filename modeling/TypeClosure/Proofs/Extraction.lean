import TypeClosure.Closure.Build

/-!
The names that a declaration mentions, said without a list that grows: what it extends, followed by
what the types of its properties name, each name where it first occurs.
-/

namespace TypeClosure

/-! ### First occurrences -/

/-- Names that are added behind others come in the order in which they first occur. -/
theorem foldl_addName_eq (names added : List String) :
    added.foldl addName names = names ++ (added.filter (· ∉ names)).eraseDups := by
  induction added generalizing names with
  | nil => simp
  | cons first rest ih =>
      rw [List.foldl_cons, ih]
      by_cases member : first ∈ names
      · simp [addName, member]
      · -- What is left of the rest must differ from the name that has just been added.
        have others : rest.filter (· ∉ names ++ [first]) =
            (rest.filter (· ∉ names)).filter (!· == first) := by
          rw [List.filter_filter]
          apply List.filter_congr
          intro name _
          rw [Bool.eq_iff_iff]
          simp [and_comm]
        rw [addName, if_neg member, others, List.filter_cons_of_pos (by simpa using member),
          List.eraseDups_cons, List.append_assoc, List.singleton_append]

theorem distinct_eq_eraseDups (names : List String) : distinct names = names.eraseDups := by
  rw [distinct, foldl_addName_eq, List.nil_append, List.filter_eq_self.mpr (by simp)]

/-! ### What types name -/

mutual
/-- What the type of a property names: a reference itself, an array its elements. -/
def TypeExpr.names : TypeExpr → List String
  | .reference text => [text]
  | .array _ element => [element.text]
  | .object _ members => Member.allNames members
  | .union _ operands | .intersection _ operands => TypeExpr.allOperandNames operands
  | .parenthesized _ _ | .other _ => []

/-- What an operand of a union or intersection names; arrays name nothing there, and parentheses
are looked into. -/
def TypeExpr.operandNames : TypeExpr → List String
  | .reference text => [text]
  | .object _ members => Member.allNames members
  | .union _ operands | .intersection _ operands => TypeExpr.allOperandNames operands
  | .parenthesized _ inner => inner.operandNames
  | .array _ _ | .other _ => []

def TypeExpr.allOperandNames : List TypeExpr → List String
  | [] => []
  | t :: ts => t.operandNames ++ TypeExpr.allOperandNames ts

def Member.names : Member → List String
  | .property (some type) => type.names
  | .property none | .other => []

def Member.allNames : List Member → List String
  | [] => []
  | m :: ms => m.names ++ Member.allNames ms
end

theorem Member.allNames_eq_flatMap (members : List Member) :
    Member.allNames members = members.flatMap Member.names := by
  induction members with
  | nil => rfl
  | cons m ms ih => rw [Member.allNames, ih, List.flatMap_cons]

mutual
theorem TypeExpr.addMentions_eq (names : List String) :
    (t : TypeExpr) → t.addMentions names = t.names.foldl addName names
  | .reference _ | .array _ _ | .parenthesized _ _ | .other _ => rfl
  | .object _ members => Member.addAllMentions_eq names members
  | .union _ operands | .intersection _ operands =>
      TypeExpr.addAllOperandMentions_eq names operands

theorem TypeExpr.addOperandMentions_eq (names : List String) :
    (t : TypeExpr) → t.addOperandMentions names = t.operandNames.foldl addName names
  | .reference _ | .array _ _ | .other _ => rfl
  | .object _ members => Member.addAllMentions_eq names members
  | .union _ operands | .intersection _ operands =>
      TypeExpr.addAllOperandMentions_eq names operands
  | .parenthesized _ inner => TypeExpr.addOperandMentions_eq names inner

theorem TypeExpr.addAllOperandMentions_eq (names : List String) : (operands : List TypeExpr) →
    TypeExpr.addAllOperandMentions names operands =
      (TypeExpr.allOperandNames operands).foldl addName names
  | [] => rfl
  | t :: ts => by
      rw [TypeExpr.addAllOperandMentions, TypeExpr.addOperandMentions_eq names t,
        TypeExpr.addAllOperandMentions_eq _ ts, TypeExpr.allOperandNames, List.foldl_append]

theorem Member.addMentions_eq (names : List String) :
    (m : Member) → m.addMentions names = m.names.foldl addName names
  | .property (some type) => TypeExpr.addMentions_eq names type
  | .property none | .other => rfl

theorem Member.addAllMentions_eq (names : List String) : (members : List Member) →
    Member.addAllMentions names members = (Member.allNames members).foldl addName names
  | [] => rfl
  | m :: ms => by
      rw [Member.addAllMentions, Member.addMentions_eq names m, Member.addAllMentions_eq _ ms,
        Member.allNames, List.foldl_append]
end

/-! ### Declarations -/

namespace TypeDecl

/-- What an interface extends. -/
def heritage (d : TypeDecl) : List String :=
  match d.body with
  | .interface heritage _ => heritage
  | .typeAlias | .enumeration => []

/-- What the properties of an interface name. -/
def memberNames (d : TypeDecl) : List String :=
  match d.body with
  | .interface _ members => members.flatMap Member.names
  | .typeAlias | .enumeration => []

theorem mentions_eq (visited : Bool) (d : TypeDecl) :
    d.mentions visited = d.name ::
      (d.name :: ((if visited then [] else d.heritage) ++ d.memberNames)).eraseDups := by
  rw [← distinct_eq_eraseDups, distinct, List.foldl_cons, List.foldl_append]
  obtain ⟨name, offset, text, body⟩ := d
  cases body with
  | interface heritage members =>
      simp only [mentions, TypeDecl.heritage, memberNames, Member.addAllMentions_eq,
        Member.allNames_eq_flatMap]
      cases visited <;> rfl
  | typeAlias => cases visited <;> rfl
  | enumeration => cases visited <;> rfl

/-- The mentions of a declaration are its own name, and behind it each name where it first occurs
among its own name, what it extends, and what its properties name. What it extends is left out under
markers that have its name visited. Nothing else about the markers matters. -/
theorem mentionsUnder_eq_eraseDups (d : TypeDecl) (markers : Markers) :
    d.mentionsUnder markers = d.name ::
      (d.name :: ((if markers.isVisited d.name then [] else d.heritage) ++
        d.memberNames)).eraseDups ∧
    (∀ other, d.mentionsUnder (markers.markExported other) = d.mentionsUnder markers) ∧
    ∀ other, other ≠ d.name →
      d.mentionsUnder (markers.markVisited other) = d.mentionsUnder markers := by
  refine ⟨mentions_eq _ d, ?_, ?_⟩
  · intro other
    rw [mentionsUnder, mentionsUnder, Markers.isVisited_markExported]
  · intro other different
    have unchanged : (markers.markVisited other).isVisited d.name = markers.isVisited d.name := by
      rw [Bool.eq_iff_iff, Markers.isVisited_markVisited]
      simp [Ne.symm different]
    rw [mentionsUnder, mentionsUnder, unchanged]

/-- An order: `interface Order extends Entity, api.Priced { lines: Line[]; buyer: (Person);
state: Line | (Person & { seen: Entity }) | Tag[]; next: Order }`. -/
def order : TypeDecl where
  name := "Order"
  offset := 0
  text := ""
  body := .interface ["Entity", "api.Priced"]
    [.property (some (.array "Line[]" (.reference "Line"))), .other,
      .property (some (.parenthesized "(Person)" (.reference "Person"))),
      .property (some (.union "Line | (Person & { seen: Entity }) | Tag[]"
        [.reference "Line",
          .parenthesized "(Person & { seen: Entity })"
            (.intersection "Person & { seen: Entity }" [.reference "Person",
              .object "{ seen: Entity }" [.property (some (.reference "Entity"))]]),
          .array "Tag[]" (.reference "Tag")])),
      .property (some (.reference "Order"))]

theorem mentionsUnder_order :
    order.mentionsUnder (({} : Markers).markVisited "Line") =
        ["Order", "Order", "Entity", "api.Priced", "Line", "Person"] ∧
      order.mentionsUnder (({} : Markers).markVisited "Order") =
        ["Order", "Order", "Line", "Person", "Entity"] := by
  obtain ⟨unmarked, _, others⟩ := mentionsUnder_eq_eraseDups order {}
  obtain ⟨visited, _⟩ := mentionsUnder_eq_eraseDups order (({} : Markers).markVisited "Order")
  refine ⟨(others "Line" (by decide)).trans (unmarked.trans ?_), visited.trans ?_⟩
  · decide
  · decide

end TypeDecl

end TypeClosure

import TypeClosure.Proofs.Extraction
import TypeClosure.Proofs.FileClosure

/-!
Parentheses and brackets in the types of properties. Parentheses around the operands of unions and
intersections change nothing that an interface mentions. Of an array the text of its elements is
mentioned: the last pair of brackets is left out, and no other.
-/

namespace TypeClosure

/-! ### Parentheses -/

mutual
/-- The type of a property, and the same type with other parentheses around operands of unions and
intersections. Its text changes with them, and of other types nothing but the text is known. -/
inductive TypeExpr.Regroups : TypeExpr → TypeExpr → Prop
  | same {t : TypeExpr} : TypeExpr.Regroups t t
  | object {text text' : String} {members members' : List Member} :
      Member.AllRegroup members members' →
      TypeExpr.Regroups (.object text members) (.object text' members')
  | union {text text' : String} {operands operands' : List TypeExpr} :
      TypeExpr.AllRegroup operands operands' →
      TypeExpr.Regroups (.union text operands) (.union text' operands')
  | intersection {text text' : String} {operands operands' : List TypeExpr} :
      TypeExpr.AllRegroup operands operands' →
      TypeExpr.Regroups (.intersection text operands) (.intersection text' operands')
  | parenthesized {text text' : String} {t t' : TypeExpr} :
      TypeExpr.OperandRegroups t t' →
      TypeExpr.Regroups (.parenthesized text t) (.parenthesized text' t')
  | other {text text' : String} : TypeExpr.Regroups (.other text) (.other text')

/-- An operand of a union or intersection, and the same with other parentheses around it too. -/
inductive TypeExpr.OperandRegroups : TypeExpr → TypeExpr → Prop
  | inside {t t' : TypeExpr} : TypeExpr.Regroups t t' → TypeExpr.OperandRegroups t t'
  | array {text text' : String} {element element' : TypeExpr} :
      TypeExpr.OperandRegroups element element' →
      TypeExpr.OperandRegroups (.array text element) (.array text' element')
  | wrap {text : String} {t t' : TypeExpr} :
      TypeExpr.OperandRegroups t t' → TypeExpr.OperandRegroups t (.parenthesized text t')
  | unwrap {text : String} {t t' : TypeExpr} :
      TypeExpr.OperandRegroups t t' → TypeExpr.OperandRegroups (.parenthesized text t) t'

inductive TypeExpr.AllRegroup : List TypeExpr → List TypeExpr → Prop
  | nil : TypeExpr.AllRegroup [] []
  | cons {t t' : TypeExpr} {ts ts' : List TypeExpr} :
      TypeExpr.OperandRegroups t t' → TypeExpr.AllRegroup ts ts' →
      TypeExpr.AllRegroup (t :: ts) (t' :: ts')

inductive Member.Regroups : Member → Member → Prop
  | same {m : Member} : Member.Regroups m m
  | property {t t' : TypeExpr} :
      TypeExpr.Regroups t t' → Member.Regroups (.property (some t)) (.property (some t'))

inductive Member.AllRegroup : List Member → List Member → Prop
  | nil : Member.AllRegroup [] []
  | cons {m m' : Member} {ms ms' : List Member} :
      Member.Regroups m m' → Member.AllRegroup ms ms' → Member.AllRegroup (m :: ms) (m' :: ms')
end

mutual
theorem TypeExpr.Regroups.names_eq {t t' : TypeExpr} :
    t.Regroups t' → t.names = t'.names ∧ t.operandNames = t'.operandNames
  | .same => ⟨rfl, rfl⟩
  | .object members => ⟨members.allNames_eq, members.allNames_eq⟩
  | .union operands => ⟨operands.allOperandNames_eq, operands.allOperandNames_eq⟩
  | .intersection operands => ⟨operands.allOperandNames_eq, operands.allOperandNames_eq⟩
  | .parenthesized inner => ⟨rfl, inner.operandNames_eq⟩
  | .other => ⟨rfl, rfl⟩

theorem TypeExpr.OperandRegroups.operandNames_eq {t t' : TypeExpr} :
    t.OperandRegroups t' → t.operandNames = t'.operandNames
  | .inside regroups => regroups.names_eq.2
  | .array _ => rfl
  | .wrap regroups => regroups.operandNames_eq
  | .unwrap regroups => regroups.operandNames_eq

theorem TypeExpr.AllRegroup.allOperandNames_eq {ts ts' : List TypeExpr} :
    TypeExpr.AllRegroup ts ts' → TypeExpr.allOperandNames ts = TypeExpr.allOperandNames ts'
  | .nil => rfl
  | .cons first rest => congrArg₂ (· ++ ·) first.operandNames_eq rest.allOperandNames_eq

theorem Member.Regroups.names_eq {m m' : Member} : m.Regroups m' → m.names = m'.names
  | .same => rfl
  | .property regroups => regroups.names_eq.1

theorem Member.AllRegroup.allNames_eq {ms ms' : List Member} :
    Member.AllRegroup ms ms' → Member.allNames ms = Member.allNames ms'
  | .nil => rfl
  | .cons first rest => congrArg₂ (· ++ ·) first.names_eq rest.allNames_eq
end

namespace TypeDecl

/-- An interface, and the same with other parentheses around operands of unions and intersections
in the types of its properties. -/
inductive Regroups : TypeDecl → TypeDecl → Prop
  | interface {name text text' : String} {offset offset' : Nat} {heritage : List String}
      {members members' : List Member} :
      Member.AllRegroup members members' →
      Regroups ⟨name, offset, text, .interface heritage members⟩
        ⟨name, offset', text', .interface heritage members'⟩

/-- Parentheses around operands of unions and intersections are not seen: an interface mentions the
same names with them and without them. -/
theorem mentionsUnder_regroups {d d' : TypeDecl} (regroups : d.Regroups d') (markers : Markers) :
    d.mentionsUnder markers = d'.mentionsUnder markers := by
  cases regroups with
  | interface members =>
      simp only [mentionsUnder, mentions, Member.addAllMentions_eq, members.allNames_eq]

/-- An order: `interface Order extends Entity { buyer: Person; state: Line | Person & { seen: Entity
| Tag[] } }`. -/
def plainOrder : TypeDecl where
  name := "Order"
  offset := 0
  text := ""
  body := .interface ["Entity"]
    [.property (some (.reference "Person")),
      .property (some (.union "Line | Person & \x7b seen: Entity | Tag[] \x7d" [.reference "Line",
        .intersection "Person & \x7b seen: Entity | Tag[] \x7d" [.reference "Person",
          .object "\x7b seen: Entity | Tag[] \x7d" [.property (some (.union "Entity | Tag[]"
            [.reference "Entity", .array "Tag[]" (.reference "Tag")]))]]]))]

/-- The same order as `interface Order extends Entity { buyer: Person; state: ((Line)) | (Person & {
seen: (Entity) | (Tag)[] }) }`. -/
def groupedOrder : TypeDecl where
  name := "Order"
  offset := 7
  text := ""
  body := .interface ["Entity"]
    [.property (some (.reference "Person")),
      .property (some (.union "((Line)) | (Person & \x7b seen: (Entity) | (Tag)[] \x7d)"
        [.parenthesized "((Line))" (.parenthesized "(Line)" (.reference "Line")),
          .parenthesized "(Person & \x7b seen: (Entity) | (Tag)[] \x7d)"
            (.intersection "Person & \x7b seen: (Entity) | (Tag)[] \x7d" [.reference "Person",
              .object "\x7b seen: (Entity) | (Tag)[] \x7d" [.property (some
                (.union "(Entity) | (Tag)[]"
                  [.parenthesized "(Entity)" (.reference "Entity"),
                    .array "(Tag)[]" (.parenthesized "(Tag)" (.reference "Tag"))]))]])]))]

theorem mentionsUnder_groupedOrder :
    plainOrder.Regroups groupedOrder ∧
      groupedOrder.mentionsUnder {} = ["Order", "Order", "Entity", "Person", "Line"] := by
  have regroups : plainOrder.Regroups groupedOrder := by
    refine .interface (.cons .same (.cons (.property (.union ?operands)) .nil))
    refine .cons ?line (.cons ?rest .nil)
    case line => exact .wrap (.wrap (.inside .same))
    case rest =>
      refine .wrap (.inside (.intersection (.cons (.inside .same) (.cons ?seen .nil))))
      refine .inside (.object (.cons (.property (.union (.cons ?entity (.cons ?tags .nil)))) .nil))
      case entity => exact .wrap (.inside .same)
      case tags => exact .array (.wrap (.inside .same))
  exact ⟨regroups, (mentionsUnder_regroups regroups {}).symm.trans (by decide)⟩

end TypeDecl

/-- Parentheses are a part of the text of an array's elements and of type arguments, and a type in
parentheses names nothing as the type of a property. -/
theorem Source.parentheses_seen :
    ∃ s ∈ Source.read? "a.ts" "interface I \x7b x: (A | B)[] \x7d
        interface J \x7b x: ((A) | B)[] \x7d
        interface K \x7b x: P<A | B> \x7d interface L \x7b x: P<(A) | B> \x7d
        interface M \x7b x: A | B \x7d interface N \x7b x: (A | B) \x7d",
      s.listing.declarations.map (·.mentions) =
        [["I", "I", "(A | B)"], ["J", "J", "((A) | B)"], ["K", "K", "P<A | B>"],
          ["L", "L", "P<(A) | B>"], ["M", "M", "A", "B"], ["N", "N"]] := by
  decide +kernel

/-! ### Brackets -/

/-- An array type with a number of pairs of brackets behind a reference. -/
inductive TypeExpr.IsArrayOf (reference : String) : Nat → TypeExpr → Prop
  | one {text : String} : TypeExpr.IsArrayOf reference 1 (.array text (.reference reference))
  | more {text : String} {pairs : Nat} {element : TypeExpr} :
      TypeExpr.IsArrayOf reference pairs element →
      TypeExpr.IsArrayOf reference (pairs + 1) (.array text element)

mutual
/-- A type of a property that is looked at: of one of some members, or of a member of an object type
in the type of such a property. -/
inductive Member.Inspects (t : TypeExpr) : List Member → Prop
  | here {members : List Member} :
      Member.property (some t) ∈ members → Member.Inspects t members
  | inside {members : List Member} {u : TypeExpr} :
      Member.property (some u) ∈ members → TypeExpr.Inspects t u → Member.Inspects t members

/-- A type of a property that is looked at inside the type of another one. -/
inductive TypeExpr.Inspects (t : TypeExpr) : TypeExpr → Prop
  | object {text : String} {members : List Member} :
      Member.Inspects t members → TypeExpr.Inspects t (.object text members)
  | union {text : String} {operands : List TypeExpr} {u : TypeExpr} :
      u ∈ operands → TypeExpr.OperandInspects t u → TypeExpr.Inspects t (.union text operands)
  | intersection {text : String} {operands : List TypeExpr} {u : TypeExpr} :
      u ∈ operands → TypeExpr.OperandInspects t u →
      TypeExpr.Inspects t (.intersection text operands)

/-- The same inside an operand of a union or intersection. -/
inductive TypeExpr.OperandInspects (t : TypeExpr) : TypeExpr → Prop
  | inside {u : TypeExpr} : TypeExpr.Inspects t u → TypeExpr.OperandInspects t u
  | parenthesized {text : String} {u : TypeExpr} :
      TypeExpr.OperandInspects t u → TypeExpr.OperandInspects t (.parenthesized text u)
end

theorem TypeExpr.allOperandNames_eq_flatMap (operands : List TypeExpr) :
    TypeExpr.allOperandNames operands = operands.flatMap TypeExpr.operandNames := by
  induction operands with
  | nil => rfl
  | cons t ts ih => rw [TypeExpr.allOperandNames, ih, List.flatMap_cons]

theorem TypeExpr.operandNames_subset {u : TypeExpr} {operands : List TypeExpr}
    (member : u ∈ operands) : u.operandNames ⊆ TypeExpr.allOperandNames operands := by
  rw [TypeExpr.allOperandNames_eq_flatMap]
  exact fun name named => List.mem_flatMap.mpr ⟨u, member, named⟩

theorem Member.names_subset {m : Member} {members : List Member} (member : m ∈ members) :
    m.names ⊆ Member.allNames members := by
  rw [Member.allNames_eq_flatMap]
  exact fun name named => List.mem_flatMap.mpr ⟨m, member, named⟩

mutual
theorem Member.Inspects.names_subset {t : TypeExpr} {members : List Member} :
    Member.Inspects t members → t.names ⊆ Member.allNames members
  | .here member => Member.names_subset member
  | .inside member inspects =>
      List.Subset.trans inspects.names_subset.1 (Member.names_subset member)

theorem TypeExpr.Inspects.names_subset {t u : TypeExpr} :
    TypeExpr.Inspects t u → t.names ⊆ u.names ∧ t.names ⊆ u.operandNames
  | .object inspects => ⟨inspects.names_subset, inspects.names_subset⟩
  | .union member inspects | .intersection member inspects =>
      have inside := List.Subset.trans inspects.names_subset (TypeExpr.operandNames_subset member)
      ⟨inside, inside⟩

theorem TypeExpr.OperandInspects.names_subset {t u : TypeExpr} :
    TypeExpr.OperandInspects t u → t.names ⊆ u.operandNames
  | .inside inspects => inspects.names_subset.2
  | .parenthesized inspects => inspects.names_subset
end

/-- What the types of properties name is mentioned under any markers. -/
theorem TypeDecl.mem_mentionsUnder_of_inspects {d : TypeDecl} {heritage : List String}
    {members : List Member} (interface : d.body = .interface heritage members) {t : TypeExpr}
    (inspects : Member.Inspects t members) (markers : Markers) {name : String}
    (named : name ∈ t.names) : name ∈ (d.mentionsUnder markers).tail := by
  have among : name ∈ d.memberNames := by
    simp only [memberNames, interface, ← Member.allNames_eq_flatMap]
    exact inspects.names_subset named
  rw [mentionsUnder, mentions_eq, List.tail_cons, List.mem_eraseDups]
  simp [among]

/-- A declaration that a listed one mentions is listed too, unless its name matches an external
pattern. -/
theorem Source.lists_mentioned {s : Source} {externals : List Glob.Pattern}
    {requested : List String} {e other : TableEntry} (member : e ∈ s.contents.table.toList)
    (member' : other ∈ s.contents.table.toList)
    (listed : Contents.entry s.contents.markers e ∈ (s.closure externals requested).declarations)
    (mentioned : other.name ∈ e.decl.references)
    (looked : isExternal externals other.name = false) :
    Contents.entry s.contents.markers other ∈ (s.closure externals requested).declarations := by
  rw [entry_mem_declarations_closure member] at listed
  rw [entry_mem_declarations_closure member']
  exact ⟨.reference listed.1 listed.2 (refers_iff.mpr ⟨e, member, rfl, mentioned⟩), looked⟩

namespace TypeDecl

/-- A property whose type is an array names one thing, its elements as they are written: the
reference, where one pair of brackets stands behind it, and otherwise an array with a pair less. The
interface mentions it, and with the interface its declarations are listed, unless the name matches
an external pattern. -/
theorem mentions_element {d : TypeDecl} {heritage : List String} {members : List Member}
    (interface : d.body = .interface heritage members) {t : TypeExpr}
    (inspects : Member.Inspects t members) {reference : String} {pairs : Nat}
    (array : t.IsArrayOf reference pairs) :
    ∃ text element, t = .array text element ∧
      (pairs = 1 → element = .reference reference) ∧
      (pairs ≠ 1 → element.IsArrayOf reference (pairs - 1)) ∧
      t.names = [element.text] ∧
      (∀ markers, element.text ∈ (d.mentionsUnder markers).tail) ∧
      ∀ (s : Source) (externals : List Glob.Pattern) (requested : List String),
        isExternal externals element.text = false →
        ∀ e ∈ s.contents.table.toList, e.decl = d →
        Contents.entry s.contents.markers e ∈ (s.closure externals requested).declarations →
        ∀ other ∈ s.contents.table.toList, other.name = element.text →
          Contents.entry s.contents.markers other ∈
            (s.closure externals requested).declarations := by
  have mentioned {text : String} {element : TypeExpr} (same : t = .array text element)
      (markers : Markers) : element.text ∈ (d.mentionsUnder markers).tail :=
    mem_mentionsUnder_of_inspects interface inspects markers (by simp [same, TypeExpr.names])
  have listed {text : String} {element : TypeExpr} (same : t = .array text element)
      (s : Source) (externals : List Glob.Pattern) (requested : List String)
      (looked : isExternal externals element.text = false) (e : TableEntry)
      (member : e ∈ s.contents.table.toList) (decl : e.decl = d)
      (here : Contents.entry s.contents.markers e ∈ (s.closure externals requested).declarations)
      (other : TableEntry) (member' : other ∈ s.contents.table.toList)
      (name : other.name = element.text) :
      Contents.entry s.contents.markers other ∈ (s.closure externals requested).declarations := by
    refine Source.lists_mentioned member member' here ?_ (name ▸ looked)
    rw [name, decl]
    exact mentioned same {}
  cases array with
  | one =>
      exact ⟨_, _, rfl, fun _ => rfl, fun many => absurd rfl many, rfl, mentioned rfl, listed rfl⟩
  | more inner =>
      refine ⟨_, _, rfl, fun one => ?_, fun _ => inner, rfl, mentioned rfl, listed rfl⟩
      cases inner <;> cases one

/-- The members of `interface Page { head: { lines: Line[] } | null; cells: Line[][] }`. -/
def pageMembers : List Member :=
  [.property (some (.union "\x7b lines: Line[] \x7d | null"
      [.object "\x7b lines: Line[] \x7d" [.property (some (.array "Line[]" (.reference "Line")))],
        .other "null"])),
    .property (some (.array "Line[][]" (.array "Line[]" (.reference "Line"))))]

def page : TypeDecl := ⟨"Page", 0, "", .interface [] pageMembers⟩

def line : TypeDecl := ⟨"Line", 7, "", .interface [] []⟩

def book : Source := ⟨"book.ts", [], [.type page [], .type line []]⟩

theorem mentions_element_page :
    Member.Inspects (.array "Line[]" (.reference "Line")) pageMembers ∧
      TypeExpr.IsArrayOf "Line" 1 (.array "Line[]" (.reference "Line")) ∧
      page.mentionsUnder {} = ["Page", "Page", "Line", "Line[]"] ∧
      Contents.entry book.contents.markers ⟨page, 1⟩ ∈
        (book.closure [] ["Page"]).declarations ∧
      Contents.entry book.contents.markers ⟨line, 1⟩ ∈
        (book.closure [] ["Page"]).declarations := by
  have inspects : Member.Inspects (.array "Line[]" (.reference "Line")) pageMembers := by
    refine .inside List.mem_cons_self (.union List.mem_cons_self (.inside (.object (.here ?_))))
    exact List.mem_cons_self
  have table : book.contents.table.toList = [⟨page, 1⟩, ⟨line, 1⟩] := rfl
  have here : Contents.entry book.contents.markers ⟨page, 1⟩ ∈
      (book.closure [] ["Page"]).declarations := by
    decide +kernel
  obtain ⟨_, _, same, -, -, -, -, listed⟩ := mentions_element (d := page) rfl inspects .one
  cases same
  refine ⟨inspects, .one, by decide, here, ?_⟩
  exact listed book [] ["Page"] rfl ⟨page, 1⟩ (by simp [table]) rfl here ⟨line, 1⟩
    (by simp [table]) rfl

end TypeDecl

/-- Of several pairs of brackets all but the last stand in the mentioned name, and types inside the
elements are not looked at: what is declared as `T` is in no closure of the first two interfaces. In
one of the third it is, unless the name matches an external pattern. -/
theorem Source.brackets_kept :
    ∃ s ∈ Source.read? "a.ts" "interface I \x7b x: T[][] \x7d
        interface J \x7b x: \x7b y: T[] \x7d[] \x7d
        interface K \x7b x: T[] \x7d
        interface T \x7b\x7d",
      s.listing.declarations.map (·.mentions) =
        [["I", "I", "T[]"], ["J", "J", "\x7b y: T[] \x7d"], ["K", "K", "T"], ["T", "T"]] ∧
      (s.closure [] ["I", "J"]).declarationNames = ["I", "J"] ∧
      (s.closure [] ["K"]).declarationNames = ["K", "T"] ∧
      (s.closure [⟨"T", [.literal 'T']⟩] ["K"]).declarationNames = ["K"] := by
  decide +kernel

end TypeClosure

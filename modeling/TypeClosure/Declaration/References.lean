import TypeClosure.Outline
import TypeClosure.Declaration.Markers

/-!
The names that a type declaration mentions, as they are written: what an interface extends, and
the references in the types of its properties. Type aliases and enumerations mention none.
-/

namespace TypeClosure

/-- Adds a name behind others, unless it is one of them. -/
def addName (names : List String) (name : String) : List String :=
  if name ∈ names then names else names ++ [name]

theorem mem_addName {names : List String} {name other : String} :
    other ∈ addName names name ↔ other ∈ names ∨ other = name := by
  unfold addName
  split <;> simp_all

mutual
/-- Adds what the type of a property mentions. -/
def TypeExpr.addMentions (names : List String) : TypeExpr → List String
  | .reference text => addName names text
  | .array _ element => addName names element.text
  | .object _ members => Member.addAllMentions names members
  | .union _ members | .intersection _ members => TypeExpr.addAllOperandMentions names members
  | .parenthesized _ _ | .other _ => names

/-- Adds what a member of a union or intersection mentions. -/
def TypeExpr.addOperandMentions (names : List String) : TypeExpr → List String
  | .reference text => addName names text
  | .object _ members => Member.addAllMentions names members
  | .union _ members | .intersection _ members => TypeExpr.addAllOperandMentions names members
  | .parenthesized _ inner => inner.addOperandMentions names
  | .array _ _ | .other _ => names

def TypeExpr.addAllOperandMentions (names : List String) : List TypeExpr → List String
  | [] => names
  | t :: ts => TypeExpr.addAllOperandMentions (t.addOperandMentions names) ts

/-- Adds what a property with a type mentions. -/
def Member.addMentions (names : List String) : Member → List String
  | .property (some type) => type.addMentions names
  | .property none | .other => names

def Member.addAllMentions (names : List String) : List Member → List String
  | [] => names
  | m :: ms => Member.addAllMentions (m.addMentions names) ms
end

/-- The declared name and behind it the names that the declaration mentions, each once; the
declared name is the first of these too. What a declaration extends is left out when the
declaration has been visited. -/
def TypeDecl.mentions (visited : Bool) (d : TypeDecl) : List String :=
  let own := [d.name]
  d.name :: match d.body with
    | .interface heritage members =>
        Member.addAllMentions (if visited then own else heritage.foldl addName own) members
    | .typeAlias | .enumeration => own

/-- The mentions of a declaration under markers. -/
def TypeDecl.mentionsUnder (markers : Markers) (d : TypeDecl) : List String :=
  d.mentions (markers.isVisited d.name)

/-- The names to follow from a declaration that has not been visited. -/
def TypeDecl.references (d : TypeDecl) : List String := (d.mentions false).tail

@[simp] theorem TypeDecl.head_mentions (visited : Bool) (d : TypeDecl) :
    (d.mentions visited).head? = some d.name := rfl

end TypeClosure

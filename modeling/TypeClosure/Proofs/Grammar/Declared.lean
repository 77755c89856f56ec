import TypeClosure.Grammar.Basic
import Mathlib.Data.List.Basic

/-!
The declarations that a piece of an outline holds, by the offsets at which they start, and those
in what the rules of the grammar answer.
-/

namespace TypeClosure

/-! ### The declarations of an outline -/

mutual
/-- The offsets of the declarations in a statement, those in its local code included. -/
def Node.offsets : Node → List Nat
  | .type d code | .exportedDefault d code => d.offset :: LocalCode.offsetsOfAll code
  | .value parts | .statement parts | .module parts => Node.offsetsOfAll parts
  | .code code => code.offsets
  | .exported n => n.offsets
  | .exportList _ | .reexport _ _ => []

def LocalCode.offsets : LocalCode → List Nat
  | .mk _ parts => Node.offsetsOfAll parts

def Node.offsetsOfAll : List Node → List Nat
  | [] => []
  | n :: ns => n.offsets ++ Node.offsetsOfAll ns

def LocalCode.offsetsOfAll : List LocalCode → List Nat
  | [] => []
  | code :: rest => code.offsets ++ LocalCode.offsetsOfAll rest
end

theorem Node.offsetsOfAll_eq_flatMap (ns : List Node) :
    Node.offsetsOfAll ns = ns.flatMap Node.offsets := by
  induction ns with
  | nil => rfl
  | cons n ns ih => rw [Node.offsetsOfAll, ih, List.flatMap_cons]

theorem LocalCode.offsetsOfAll_eq_flatMap (codes : List LocalCode) :
    LocalCode.offsetsOfAll codes = codes.flatMap LocalCode.offsets := by
  induction codes with
  | nil => rfl
  | cons code codes ih => rw [LocalCode.offsetsOfAll, ih, List.flatMap_cons]

namespace Grammar

variable {α β : Type}

/-- What a rule answers, by the offsets of the declarations in it. -/
class Declaring (α : Type) where
  declared : α → List Nat

export Declaring (declared)

instance declaringNode : Declaring Node := ⟨Node.offsets⟩
instance declaringLocalCode : Declaring LocalCode := ⟨LocalCode.offsets⟩
instance declaringTypeDecl : Declaring TypeDecl := ⟨fun d => [d.offset]⟩
instance declaringString : Declaring String := ⟨fun _ => []⟩
instance declaringBool : Declaring Bool := ⟨fun _ => []⟩
instance declaringMember : Declaring Member := ⟨fun _ => []⟩

instance declaringList [Declaring α] : Declaring (List α) :=
  ⟨fun list => list.flatMap declared⟩

instance declaringOption [Declaring α] : Declaring (Option α) :=
  ⟨fun a => (a.map declared).getD []⟩

instance declaringProd [Declaring α] [Declaring β] : Declaring (α × β) :=
  ⟨fun pair => declared pair.1 ++ declared pair.2⟩

instance declaringExpr : Declaring Expr := ⟨fun e => declared e.code⟩
instance declaringPattern : Declaring Pattern := ⟨fun p => declared p.code⟩
instance declaringTypeSyntax : Declaring TypeSyntax := ⟨fun t => declared t.code⟩

/-- What holds no declarations. -/
class Bare (α : Type) [Declaring α] : Prop where
  declared_eq_nil : ∀ a : α, declared a = []

instance bare_string : Bare String := ⟨fun _ => rfl⟩
instance bare_bool : Bare Bool := ⟨fun _ => rfl⟩
instance bare_member : Bare Member := ⟨fun _ => rfl⟩

/-- A function that keeps all declarations. -/
class Keeps [Declaring α] [Declaring β] (f : α → β) : Prop where
  declared_eq : ∀ a, declared (f a) = declared a

section

variable [Declaring α] [Declaring β]

@[simp] theorem declared_bare [Bare α] (a : α) : declared a = [] := Bare.declared_eq_nil a

@[simp] theorem declared_nil : declared ([] : List α) = [] := rfl

@[simp] theorem declared_cons (a : α) (list : List α) :
    declared (a :: list) = declared a ++ declared list := rfl

@[simp] theorem declared_append (list list' : List α) :
    declared (list ++ list') = declared list ++ declared list' := List.flatMap_append

@[simp] theorem declared_none : declared (none : Option α) = [] := rfl

@[simp] theorem declared_some (a : α) : declared (some a) = declared a := rfl

@[simp] theorem declared_pair (a : α) (b : β) : declared (a, b) = declared a ++ declared b := rfl

@[simp] theorem declared_flatten (lists : List (List α)) :
    declared lists.flatten = declared lists := by
  induction lists with
  | nil => rfl
  | cons list lists ih => rw [List.flatten_cons, declared_append, declared_cons, ih]

@[simp] theorem declared_flatMap (f : α → List β) [Keeps f] (list : List α) :
    declared (list.flatMap f) = declared list := by
  induction list with
  | nil => rfl
  | cons a list ih =>
      rw [List.flatMap_cons, declared_append, declared_cons, Keeps.declared_eq, ih]

@[simp] theorem declared_map (f : α → β) [Keeps f] (list : List α) :
    declared (list.map f) = declared list := by
  induction list with
  | nil => rfl
  | cons a list ih => rw [List.map_cons, declared_cons, declared_cons, Keeps.declared_eq, ih]

@[simp] theorem declared_optionMap (f : α → β) [Keeps f] (a : Option α) :
    declared (a.map f) = declared a := by
  cases a with
  | none => rfl
  | some a => exact Keeps.declared_eq a

@[simp] theorem declared_getD (a : Option (List α)) : declared (a.getD []) = declared a := by
  cases a with
  | none => rfl
  | some list => rfl

@[simp] theorem declared_filterMap (list : List (Option α)) :
    declared (list.filterMap fun a => a) = declared list := by
  induction list with
  | nil => rfl
  | cons a list ih =>
      cases a with
      | none => exact ih
      | some a => exact congrArg (declared a ++ ·) ih

end

@[simp] theorem declared_decl (d : TypeDecl) : declared d = [d.offset] := rfl

@[simp] theorem declared_expr (e : Expr) : declared e = declared e.code := rfl

@[simp] theorem declared_pattern (p : Pattern) : declared p = declared p.code := rfl

@[simp] theorem declared_typeSyntax (t : TypeSyntax) : declared t = declared t.code := rfl

@[simp] theorem declared_type (d : TypeDecl) (code : List LocalCode) :
    declared (Node.type d code) = d.offset :: declared code :=
  congrArg (d.offset :: ·) (LocalCode.offsetsOfAll_eq_flatMap code)

@[simp] theorem declared_exportedDefault (d : TypeDecl) (code : List LocalCode) :
    declared (Node.exportedDefault d code) = d.offset :: declared code :=
  congrArg (d.offset :: ·) (LocalCode.offsetsOfAll_eq_flatMap code)

@[simp] theorem declared_value (parts : List Node) :
    declared (Node.value parts) = declared parts := Node.offsetsOfAll_eq_flatMap parts

@[simp] theorem declared_statement (parts : List Node) :
    declared (Node.statement parts) = declared parts := Node.offsetsOfAll_eq_flatMap parts

@[simp] theorem declared_module (items : List Node) :
    declared (Node.module items) = declared items := Node.offsetsOfAll_eq_flatMap items

@[simp] theorem declared_code (code : LocalCode) : declared (Node.code code) = declared code := rfl

@[simp] theorem declared_exported (n : Node) : declared (Node.exported n) = declared n := rfl

@[simp] theorem declared_mk (scope : LocalScope) (parts : List Node) :
    declared (LocalCode.mk scope parts) = declared parts := Node.offsetsOfAll_eq_flatMap parts

instance bare_list [Declaring α] [Bare α] : Bare (List α) where
  declared_eq_nil := by
    intro list
    induction list with
    | nil => rfl
    | cons a list ih => rw [declared_cons, declared_bare, ih, List.nil_append]

instance bare_option [Declaring α] [Bare α] : Bare (Option α) where
  declared_eq_nil := by
    intro a
    cases a with
    | none => rfl
    | some a => exact declared_bare a

instance keeps_nodeCode : Keeps Node.code := ⟨declared_code⟩
instance keeps_exprCode : Keeps Expr.code := ⟨declared_expr⟩
instance keeps_patternCode : Keeps Pattern.code := ⟨declared_pattern⟩
instance keeps_typeCode : Keeps TypeSyntax.code := ⟨declared_typeSyntax⟩
instance keeps_some [Declaring α] : Keeps (some : α → Option α) := ⟨declared_some⟩

instance keeps_snd [Declaring α] [Declaring β] [Bare α] : Keeps (Prod.snd : α × β → β) where
  declared_eq := fun pair => by rw [← Prod.eta pair, declared_pair, declared_bare pair.1]; rfl

@[simp] theorem declared_of (scope : LocalScope) (code : List LocalCode) (body : List Node) :
    declared (LocalCode.of scope code body) = declared code ++ declared body := by
  rw [LocalCode.of, declared_mk, declared_append, declared_map]

end Grammar

end TypeClosure

import TypeClosure.Grammar.Statement
import TypeClosure.Proofs.Grammar.Finding

/-!
Where exports stand: among the items of a file or of a namespace, and nowhere else. The rules of
the grammar are put together by few operations, and what they keep is shown once of each of them.
-/

namespace TypeClosure

mutual
/-- A statement or a part of one: it holds exports among the items of its namespaces only. -/
inductive Node.IsStatement : Node → Prop
  | type {d : TypeDecl} {code : List LocalCode} :
      (∀ c ∈ code, LocalCode.HoldsStatements c) → Node.IsStatement (.type d code)
  | value {parts : List Node} :
      (∀ n ∈ parts, Node.IsStatement n) → Node.IsStatement (.value parts)
  | module {items : List Node} :
      (∀ n ∈ items, Node.IsItem n) → Node.IsStatement (.module items)
  | statement {parts : List Node} :
      (∀ n ∈ parts, Node.IsStatement n) → Node.IsStatement (.statement parts)
  | code {c : LocalCode} : LocalCode.HoldsStatements c → Node.IsStatement (.code c)

inductive LocalCode.HoldsStatements : LocalCode → Prop
  | mk {scope : LocalScope} {parts : List Node} :
      (∀ n ∈ parts, Node.IsStatement n) → LocalCode.HoldsStatements (.mk scope parts)

/-- An item of a file or of a namespace: a statement or an export. -/
inductive Node.IsItem : Node → Prop
  | statement {n : Node} : Node.IsStatement n → Node.IsItem n
  | exported {n : Node} : Node.IsStatement n → Node.IsItem (.exported n)
  | exportedDefault {d : TypeDecl} {code : List LocalCode} :
      (∀ c ∈ code, LocalCode.HoldsStatements c) → Node.IsItem (.exportedDefault d code)
  | exportList {specifiers : List ExportSpecifier} : Node.IsItem (.exportList specifiers)
  | reexport {specifiers : List ExportSpecifier} {source : Option String} :
      Node.IsItem (.reexport specifiers source)
end

namespace Grammar

variable {α β γ : Type}

/-! ### What holds statements only -/

/-- Values that a rule may answer, with those among them that hold statements only. -/
class Tidy (α : Type) where
  tidy : α → Prop

export Tidy (tidy)

instance tidyNode : Tidy Node := ⟨Node.IsStatement⟩
instance tidyLocalCode : Tidy LocalCode := ⟨LocalCode.HoldsStatements⟩
instance tidyBool : Tidy Bool := ⟨fun _ => True⟩
instance tidyString : Tidy String := ⟨fun _ => True⟩
instance tidyMember : Tidy Member := ⟨fun _ => True⟩
instance tidyTypeDecl : Tidy TypeDecl := ⟨fun _ => True⟩
instance tidyTupleElement : Tidy TupleElement := ⟨fun _ => True⟩

instance tidyList [Tidy α] : Tidy (List α) := ⟨fun list => ∀ a ∈ list, tidy a⟩

instance tidyOption [Tidy α] : Tidy (Option α) := ⟨fun answer => ∀ a ∈ answer, tidy a⟩

instance tidyProd [Tidy α] [Tidy β] : Tidy (α × β) := ⟨fun pair => tidy pair.1 ∧ tidy pair.2⟩

instance tidyExpr : Tidy Expr := ⟨fun e => tidy e.code⟩
instance tidyPattern : Tidy Pattern := ⟨fun p => tidy p.code⟩
instance tidyTypeSyntax : Tidy TypeSyntax := ⟨fun t => tidy t.code⟩
instance tidyParenthesizedItem : Tidy ParenthesizedItem := ⟨fun item => tidy item.expr⟩

/-- What holds no statements at all. -/
class NodeFree (α : Type) [Tidy α] : Prop where
  tidy_all : ∀ a : α, tidy a

instance nodeFree_bool : NodeFree Bool := ⟨fun _ => trivial⟩
instance nodeFree_string : NodeFree String := ⟨fun _ => trivial⟩
instance nodeFree_member : NodeFree Member := ⟨fun _ => trivial⟩
instance nodeFree_typeDecl : NodeFree TypeDecl := ⟨fun _ => trivial⟩
instance nodeFree_tupleElement : NodeFree TupleElement := ⟨fun _ => trivial⟩

instance nodeFree_option [Tidy α] [NodeFree α] : NodeFree (Option α) :=
  ⟨fun _ a _ => NodeFree.tidy_all a⟩

/-- A value that holds statements only, as instances show it. -/
class IsTidy [Tidy α] (a : α) : Prop where
  out : tidy a

/-- Values for which this is known. A hypothesis on a value comes to instances as a part of it. -/
structure Tidied (α : Type) [Tidy α] where
  val : α
  isTidy : tidy val

section

variable [Tidy α] [Tidy β]

instance isTidy_val (a : Tidied α) : IsTidy a.val := ⟨a.isTidy⟩

instance (priority := low) isTidy_nodeFree [NodeFree α] (a : α) : IsTidy a := ⟨NodeFree.tidy_all a⟩

instance isTidy_nil : IsTidy ([] : List α) := ⟨fun _ member => absurd member List.not_mem_nil⟩

instance isTidy_cons (a : α) (list : List α) [first : IsTidy a] [rest : IsTidy list] :
    IsTidy (a :: list) :=
  ⟨List.forall_mem_cons.mpr ⟨first.out, rest.out⟩⟩

instance isTidy_append (list list' : List α) [first : IsTidy list] [second : IsTidy list'] :
    IsTidy (list ++ list') :=
  ⟨List.forall_mem_append.mpr ⟨first.out, second.out⟩⟩

instance isTidy_none : IsTidy (none : Option α) := ⟨fun _ found => nomatch found⟩

instance isTidy_some (a : α) [here : IsTidy a] : IsTidy (some a) :=
  ⟨fun _ same => Option.some.inj same ▸ here.out⟩

instance isTidy_pair (a : α) (b : β) [first : IsTidy a] [second : IsTidy b] : IsTidy (a, b) :=
  ⟨first.out, second.out⟩

instance isTidy_fst (pair : α × β) [both : IsTidy pair] : IsTidy pair.1 := ⟨both.out.1⟩

instance isTidy_snd (pair : α × β) [both : IsTidy pair] : IsTidy pair.2 := ⟨both.out.2⟩

instance isTidy_getD (answer : Option α) (a : α) [here : IsTidy answer] [otherwise : IsTidy a] :
    IsTidy (answer.getD a) where
  out := by
    cases answer with
    | none => exact otherwise.out
    | some b => exact here.out b rfl

instance isTidy_head? (list : List α) [all : IsTidy list] : IsTidy list.head? :=
  ⟨fun a first => all.out a (List.mem_of_head? first)⟩

instance isTidy_optionMap (f : α → β) (answer : Option α) [here : IsTidy answer]
    [image : ∀ a : Tidied α, IsTidy (f a.val)] : IsTidy (answer.map f) where
  out := by
    intro b found
    obtain ⟨a, member, rfl⟩ := Option.map_eq_some_iff.mp found
    exact (image ⟨a, here.out a member⟩).out

instance isTidy_map (f : α → β) (list : List α) [all : IsTidy list]
    [image : ∀ a : Tidied α, IsTidy (f a.val)] : IsTidy (list.map f) where
  out := by
    intro b found
    obtain ⟨a, member, rfl⟩ := List.mem_map.mp found
    exact (image ⟨a, all.out a member⟩).out

instance isTidy_flatMap (f : α → List β) (list : List α) [all : IsTidy list]
    [image : ∀ a : Tidied α, IsTidy (f a.val)] : IsTidy (list.flatMap f) where
  out := by
    intro b found
    obtain ⟨a, member, inside⟩ := List.mem_flatMap.mp found
    exact (image ⟨a, all.out a member⟩).out b inside

instance isTidy_flatten (lists : List (List α)) [all : IsTidy lists] : IsTidy lists.flatten where
  out := by
    intro a found
    obtain ⟨list, member, inside⟩ := List.mem_flatten.mp found
    exact all.out list member a inside

instance isTidy_filterMap_id (list : List (Option α)) [all : IsTidy list] :
    IsTidy (list.filterMap id) where
  out := by
    intro a found
    obtain ⟨answer, member, inside⟩ := List.mem_filterMap.mp found
    exact all.out answer member a inside

end

instance isTidy_expr (shape : Shape) (code : List LocalCode) [held : IsTidy code] :
    IsTidy (Expr.mk shape code) := ⟨held.out⟩

instance isTidy_pattern (isIdentifier hasDefault : Bool) (code : List LocalCode)
    [held : IsTidy code] : IsTidy (Pattern.mk isIdentifier hasDefault code) := ⟨held.out⟩

instance isTidy_typeSyntax (t : TypeExpr) (code : List LocalCode) [held : IsTidy code] :
    IsTidy (TypeSyntax.mk t code) := ⟨held.out⟩

instance isTidy_parenthesizedItem (isParameter isSpread : Bool) (e : Expr) [held : IsTidy e] :
    IsTidy (ParenthesizedItem.mk isParameter isSpread e) := ⟨held.out⟩

instance isTidy_exprCode (e : Expr) [whole : IsTidy e] : IsTidy e.code := ⟨whole.out⟩

instance isTidy_patternCode (p : Pattern) [whole : IsTidy p] : IsTidy p.code := ⟨whole.out⟩

instance isTidy_typeCode (t : TypeSyntax) [whole : IsTidy t] : IsTidy t.code := ⟨whole.out⟩

instance isTidy_itemExpr (item : ParenthesizedItem) [whole : IsTidy item] : IsTidy item.expr :=
  ⟨whole.out⟩

instance isTidy_type (d : TypeDecl) (code : List LocalCode) [held : IsTidy code] :
    IsTidy (Node.type d code) := ⟨.type held.out⟩

instance isTidy_value (parts : List Node) [held : IsTidy parts] : IsTidy (Node.value parts) :=
  ⟨.value held.out⟩

instance isTidy_statement (parts : List Node) [held : IsTidy parts] :
    IsTidy (Node.statement parts) := ⟨.statement held.out⟩

instance isTidy_code (code : LocalCode) [held : IsTidy code] : IsTidy (Node.code code) :=
  ⟨.code held.out⟩

instance isTidy_mk (scope : LocalScope) (parts : List Node) [held : IsTidy parts] :
    IsTidy (LocalCode.mk scope parts) := ⟨.mk held.out⟩

instance isTidy_of (scope : LocalScope) (code : List LocalCode) (body : List Node) [IsTidy code]
    [IsTidy body] : IsTidy (LocalCode.of scope code body) := by
  unfold LocalCode.of
  infer_instance

instance isTidy_ofCode (code : List LocalCode) [IsTidy code] : IsTidy (ofCode code) := by
  unfold ofCode
  infer_instance

/-! ### What rules answer -/

/-- Whatever a rule answers has a property. -/
class Answers (holds : α → Prop) (rule : Parse α) : Prop where
  holds : ∀ {s p a q}, rule s p = some (a, q) → holds a

variable {holds : β → Prop}

namespace Answers

theorem pure {b : β} (held : holds b) : Answers holds (pure b) where
  holds := by
    intro s p a q run
    cases run
    exact held

theorem andThen {used : α → Prop} {rule : Parse α} {next : α → Parse β} (here : Answers used rule)
    (there : ∀ a, used a → Answers holds (next a)) : Answers holds (rule >>= next) where
  holds := by
    intro s p b q run
    obtain ⟨a, r, first, second⟩ := bind_eq_some.mp run
    exact (there a (here.holds first)).holds second

/-- Goes on behind a rule whose answer is not kept. -/
theorem next {rule : Parse γ} {next : γ → Parse β} (there : ∀ c, Answers holds (next c)) :
    Answers holds (rule >>= next) := by
  have unused : Answers (fun _ => True) rule := ⟨fun _ => trivial⟩
  exact unused.andThen fun c _ => there c

theorem bind [Tidy α] {rule : Parse α} {next : α → Parse β} [here : Answers tidy rule]
    (there : ∀ a : Tidied α, Answers holds (next a.val)) : Answers holds (rule >>= next) :=
  andThen here fun a isTidy => there ⟨a, isTidy⟩

theorem repeatUpTo (n : Nat) {rule : Parse (Option β)}
    (inside : Answers (fun answer => ∀ b ∈ answer, holds b) rule) :
    Answers (fun list => ∀ b ∈ list, holds b) (repeatUpTo n rule) := by
  induction n with
  | zero => exact ⟨fun run => nomatch run⟩
  | succ n ih =>
      refine inside.andThen fun
        | none, _ => .pure fun _ member => absurd member List.not_mem_nil
        | some b, held => ih.andThen fun rest all => .pure ?_
      exact List.forall_mem_cons.mpr ⟨held b rfl, all⟩

theorem repeated {rule : Parse (Option β)}
    (inside : Answers (fun answer => ∀ b ∈ answer, holds b) rule) :
    Answers (fun list => ∀ b ∈ list, holds b) (repeated rule) :=
  .next fun _ => .repeatUpTo _ inside

/-- Each of the items in braces is an answer of the rule for one of them. -/
theorem braced {item : Parse β} (inside : Answers holds item) :
    Answers (fun list => ∀ b ∈ list, holds b) (braced item) := by
  refine .next fun _ => .andThen (.repeated ?_) fun list all => .next fun _ => .pure all
  refine .next fun _ => .next fun _ => ?_
  split
  · exact .pure fun _ found => nomatch found
  · exact inside.andThen fun b held => .pure fun _ same => Option.some.inj same ▸ held

end Answers

instance answers_failure : Answers holds (failure : Parse β) := ⟨fun run => nomatch run⟩

instance answers_ite (c : Prop) [Decidable c] (rule rule' : Parse β) [yes : Answers holds rule]
    [no : Answers holds rule'] : Answers holds (if c then rule else rule') := by
  split
  · exact yes
  · exact no

instance answers_withReader (f : Surroundings → Surroundings) (rule : Parse β)
    [inside : Answers holds rule] : Answers holds (withReader f rule) :=
  ⟨fun run => inside.holds run⟩

instance answers_nested (rule : Parse β) [Answers holds rule] : Answers holds (nested rule) := by
  unfold nested
  infer_instance

instance (priority := low) answers_next (rule : Parse γ) (next : γ → Parse β)
    [there : ∀ c, Answers holds (next c)] : Answers holds (rule >>= next) := .next there

section

variable [Tidy α] [Tidy γ]

instance answers_pure (a : α) [held : IsTidy a] : Answers tidy (pure a : Parse α) := .pure held.out

instance answers_bind (rule : Parse α) (next : α → Parse β) [Answers tidy rule]
    [there : ∀ a : Tidied α, Answers holds (next a.val)] : Answers holds (rule >>= next) :=
  .bind there

/-- Goes on with the answer of a rule, or without one. -/
instance (priority := 500) answers_tries (rule : Parse (Option α)) (next : Option α → Parse β)
    [here : Answers tidy rule] [hit : ∀ a : Tidied α, Answers holds (next (some a.val))]
    [miss : Answers holds (next none)] : Answers holds (rule >>= next) :=
  here.andThen fun
    | none, _ => miss
    | some a, held => hit ⟨a, held a rfl⟩

instance (priority := 500) answers_triesTwice (rule : Parse (Option (Option α)))
    (next : Option (Option α) → Parse β) [here : Answers tidy rule]
    [hit : ∀ a : Tidied α, Answers holds (next (some (some a.val)))]
    [empty : Answers holds (next (some none))] [miss : Answers holds (next none)] :
    Answers holds (rule >>= next) :=
  here.andThen fun
    | none, _ => miss
    | some none, _ => empty
    | some (some a), held => hit ⟨a, held _ rfl a rfl⟩

instance answers_attempt (rule : Parse α) [inside : Answers tidy rule] :
    Answers tidy (attempt rule) where
  holds := by
    intro s p answer q run
    unfold attempt at run
    split at run
    · next found =>
        cases run
        exact fun _ same => Option.some.inj same ▸ inside.holds found
    · cases run
      exact fun _ found => nomatch found

instance answers_repeated (rule : Parse (Option α)) [inside : Answers tidy rule] :
    Answers tidy (repeated rule) := .repeated inside

instance answers_separatedUpTo (n : Nat) (stop : Parse Bool) (rule : Parse α)
    [Answers tidy rule] : Answers tidy (separatedUpTo n stop rule) := by
  induction n with
  | zero => exact answers_failure
  | succ n ih =>
      unfold separatedUpTo
      infer_instance

instance answers_separated (stop : Parse Bool) (rule : Parse α) [Answers tidy rule] :
    Answers tidy (separated stop rule) := by
  unfold separated
  infer_instance

instance answers_braced (item : Parse α) [inside : Answers tidy item] :
    Answers tidy (braced item) := .braced inside

end

/-! ### The rules that nesting comes back to -/

/-- Rules that answer statements, and items of modules. -/
class Rules.Orderly (rules : Rules) : Prop where
  type : Answers tidy rules.type
  boundType : Answers tidy rules.boundType
  typeOperand : Answers tidy rules.typeOperand
  pattern : Answers tidy rules.pattern
  assignment : Answers tidy rules.assignment
  binary : Answers tidy rules.binary
  unary : Answers tidy rules.unary
  applied : ∀ calls, Answers tidy (rules.applied calls)
  element : Answers tidy rules.element
  heritage : Answers tidy rules.heritage
  statement : ∀ declarations, Answers tidy (rules.statement declarations)
  moduleItem : Answers Node.IsItem rules.moduleItem

attribute [instance] Rules.Orderly.type Rules.Orderly.boundType Rules.Orderly.typeOperand
  Rules.Orderly.pattern Rules.Orderly.assignment Rules.Orderly.binary Rules.Orderly.unary
  Rules.Orderly.applied Rules.Orderly.element Rules.Orderly.heritage Rules.Orderly.statement
  Rules.Orderly.moduleItem

end Grammar

end TypeClosure

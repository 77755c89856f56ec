import TypeClosure.Grammar.Expression
import TypeClosure.Proofs.Grammar.Element

/-! What the rules of expressions find. -/

namespace TypeClosure.Grammar

open Syntax

variable {text : List Char} {rules : Rules}

instance declaringParenthesizedItem : Declaring ParenthesizedItem :=
  ⟨fun item => declared item.expr⟩

@[simp] theorem declared_parenthesizedItem (item : ParenthesizedItem) :
    declared item = declared item.expr.code := rfl

instance keeps_parenthesizedItem : Keeps fun item : ParenthesizedItem => item.expr.code :=
  ⟨declared_parenthesizedItem⟩

variable [rules.Sound text]

/-! ### Literals -/

instance finds_spreadable : Finds text [] (spreadable rules) := by
  unfold spreadable
  infer_instance

instance finds_arrayLiteral : Finds text [] (arrayLiteral rules) :=
  .next fun _ => .bind fun list => .pure fun offset => by simp

instance finds_objectProperty : Finds text [] (objectProperty rules) := by
  refine .next fun _ => .ite (.bind fun e => .pure fun offset => by simp) ?_
  refine .next fun _ => .ite (.bind fun key => .bind fun code => .pure fun offset => by simp) ?_
  refine .next fun _ => .next fun t => .bind fun key => .next fun _ =>
    .ite (.bind fun e => .pure fun offset => by simp) (.next fun _ => .next fun _ => .ite ?_ ?_)
  · exact .bind fun code => .pure fun offset => by simp
  · split
    · refine .next fun _ => .next fun _ => .next fun _ => .ite (.pure fun offset => by simp) ?_
      refine .bind fun
        | some e => .pure fun offset => by simp
        | none => .ite ?_ ?_
      · exact .bind fun key' => .bind fun code => .pure fun offset => by simp
      · exact .next fun _ => .next fun _ => .bind fun key' => .bind fun code =>
          .pure fun offset => by simp
    · exact .next fun _ => .next fun _ => .pure fun offset => by simp

instance finds_objectLiteral : Finds text [] (objectLiteral rules) :=
  .next fun _ => .bind fun list => .next fun _ => .pure fun offset => by simp

instance finds_templateLiteral (isTagged : Bool) :
    Finds text [] (templateLiteral rules isTagged) := by
  unfold templateLiteral
  infer_instance

/-! ### Arrow functions -/

theorem finds_arrowExpression {owned : List Nat} (async : Bool) (code : List LocalCode)
    (held : ∀ offset, (declared code).count offset ≤ owned.count offset) :
    Finds text owned (arrowExpression rules async code) := by
  refine .bind fun
    | (isBlock, body) => .pure fun offset => ?_
  have held := held offset
  simp
  omega

theorem finds_assignmentFrom (target : Expr) :
    Finds text (declared target) (assignmentFrom rules target) := by
  refine .from_token fun p within => .ite (fun _ => ?_) fun _ => .of_finds within ?_
  · refine .peek fun _ =>
      .resume within (within.first.trans (before_last_asOperator within.last)) ?_
    exact .bind fun value => .pure fun offset => by simp
  · exact .pure fun _ => Nat.le_refl _

instance finds_branches : Finds text [] (branches rules) :=
  .next fun _ => .bind fun yes => .next fun _ => .bind fun no => .pure fun offset => by simp

instance finds_parenthesizedItem : Finds text [] (parenthesizedItem rules) := by
  refine .next fun first => .next fun _ => .next fun isSpread => .next fun _ =>
    .andThen (.withReader _ (.ite ?_ inferInstance)) fun plain => ?_
  · exact .bind fun e => .ite (.pure fun offset => by simp) (finds_assignmentFrom e)
  refine .next fun next => .next fun _ => .ite (.next fun _ => ?_) ?_
  · split
    · exact .bind fun ascription => .bind fun value => .pure fun offset => by simp
    · infer_instance
  · refine .next fun _ => .meet (fun there => .ite ?_ (.through ?_ there)) fun e => ?_
    · exact .bind fun code => .through (.pure fun offset => by simp) there
    · exact .pure fun offset => by simp
    · refine .next fun _ => .ite ?_ (.pure fun offset => by simp)
      exact .next fun _ => .bind fun ascription => .bind fun value => .pure fun offset => by simp

/-! ### Operators -/

/-- A rule that takes nothing and answers no other operator than a token. -/
def Offers (t : Token) (rule : Parse (Option (Nat × Token))) : Prop :=
  ∀ {s p found p'}, rule s p = some (found, p') → p' = p ∧ ∀ operator ∈ found, operator.2 = t

omit [rules.Sound text] in
theorem offers_binaryOperator? {s : Surroundings} {p p' : Position}
    {found : Option (Nat × Token)} (h : binaryOperator? s p = some (found, p')) :
    p' = p ∧ ∀ operator ∈ found, operator.2 = p.token.asOperator := by
  obtain ⟨t, q, same, h⟩ := bind_eq_some.mp h
  cases same
  refine (?_ : Offers p.token.asOperator _) h
  split
  case h_10 =>
    intro s p found p' h
    obtain ⟨surroundings, q, same, h⟩ := bind_eq_some.mp h
    cases same
    by_cases allowed : s.allowsIn = true
    · rw [if_pos allowed] at h
      cases h
      simp
    · rw [if_neg allowed] at h
      cases h
      simp
  all_goals
    intro s p found p' h
    cases h
    simp

instance stays_binaryOperator? : Stays binaryOperator? where
  eq := fun h => (offers_binaryOperator? h).1

theorem finds_operationsUpTo (n least : Nat) (left : Expr) :
    Finds text (declared left) (operationsUpTo rules n least left) := by
  induction n generalizing least left with
  | zero => exact inferInstanceAs (Finds text _ failure)
  | succ n ih =>
      refine .from_token fun p within =>
        .ite (fun _ => .of_finds within (.next fun _ => ?_)) fun _ => ?_
      · refine .next fun _ => .ite (.next fun _ => ih least ⟨.other, left.code⟩)
          (.bind fun type => ?_)
        simpa using ih least ⟨.other, left.code ++ type.code⟩
      · refine .look fun s found same => ?_
        have same := (offers_binaryOperator? same).2
        split
        · exact .of_finds within (.pure fun offset => by simp)
        · next precedence operator _ =>
            refine .ite (fun _ => .of_finds within (.pure fun offset => by simp)) fun _ => ?_
            refine .peek fun _ => .resume within ?_ ?_
            · -- The rule goes on behind the whole operator, further than behind the token.
              have same : operator = _ := same _ rfl
              rw [same]
              exact within.first.trans (before_last_asOperator within.last)
            · refine .bind fun operand => .frame (ih _ operand) fun right => ?_
              simpa using ih least ⟨.operation, left.code ++ right.code⟩

/-- Goes on with any operators. -/
instance finds_operations (left : Expr) : Finds text (declared left) (operations rules left) :=
  .next fun _ => finds_operationsUpTo _ _ _

theorem finds_behindArrow (isBlock : Bool) (e : Expr) :
    Finds text (declared e) (behindArrow rules isBlock e) := by
  refine .next fun _ => .ite ?_ (.pure fun _ => Nat.le_refl _)
  exact finds_operations ⟨.other, e.code⟩

instance finds_parenthesized (async : Bool) : Finds text [] (parenthesized rules async) := by
  refine .next fun start => .next fun _ => .bind fun list => .next fun _ => .next fun s =>
    .next fun _ => .ite_rejoin (fun rest => .tries (.attempt ?_) ?_ rest) ?_
  · refine .bind fun output => .next fun _ => .next fun _ => .through
      (finds_arrowExpression _ _ fun offset => by simp) fun
        | (_, e) => .next fun _ => .next fun _ => .pure fun offset => by simp
  · exact fun e => .pure fun offset => by simp
  · refine .next fun _ => .ite_andThen (.attempt ?_) inferInstance fun output => .next fun _ =>
      .ite ?_ (.ite ?_ ?_)
    · exact .bind fun output => .next fun _ => .next fun _ => .pure fun offset => by simp
    · refine .next fun _ => .next fun _ => .next fun _ => .next fun _ => .through
        (finds_arrowExpression _ _ fun offset => by simp) fun
          | (isBlock, e) => finds_behindArrow isBlock e
    · exact .pure fun offset => by simp
    · exact .next fun _ => .pure fun offset => by simp

/-! ### Operands -/

instance finds_callArguments : Finds text [] (callArguments rules) :=
  .next fun _ => .bind fun list => .next fun _ => .pure fun offset => by simp

instance finds_asyncExpression : Finds text [] (asyncExpression rules) := by
  have name : Finds text [] (pure ⟨.identifier "async", []⟩ : Parse Expr) :=
    .pure fun _ => Nat.zero_le _
  refine .next fun start => .next fun _ => .next fun _ => .next fun t => .ite name (.ite ?_ (.ite ?_
    (.ite inferInstance (.ite ?_ name))))
  · exact .bind fun code => .pure fun offset => by simp
  · refine .next fun _ => .next fun _ => .ite (.bind fun type => .pure fun offset => by simp) ?_
    exact .next fun _ => .through (finds_arrowExpression _ _ fun _ => Nat.zero_le _) fun
      | (_, e) => .pure fun offset => by simp
  · refine .andThen (.attempt ?_) fun
      | some e => .pure fun offset => by simp
      | none => name
    refine .bind fun generics => .next fun _ => .bind fun list => .bind fun output =>
      .next fun _ => .next fun _ => .next fun _ => .through
        (finds_arrowExpression _ _ fun offset => by simp; omega) fun
          | (_, e) => .pure fun offset => by simp

instance finds_primary : Finds text [] (primary rules) := by
  refine .from_token fun p within => ?_
  split
  case h_9 | h_10 =>
    refine .peek fun _ => ?_
    split
    · next last ends =>
        exact .resume within (within.first.trans (before_regexEnd? ends))
          (.pure fun _ => Nat.zero_le _)
    · exact .failure
  · exact .of_finds within (.next fun _ => .pure fun _ => Nat.zero_le _)
  · exact .of_finds within (.next fun _ => .pure fun _ => Nat.zero_le _)
  · exact .of_finds within (.next fun _ => .pure fun _ => Nat.zero_le _)
  · exact .of_finds within (.next fun _ => .next fun _ => .pure fun _ => Nat.zero_le _)
  · exact .of_finds within inferInstance
  · exact .of_finds within inferInstance
  · exact .of_finds within inferInstance
  · exact .of_finds within (.bind fun code => .pure fun offset => by simp)
  · refine .of_finds within (.ite (.next fun _ => .pure fun _ => Nat.zero_le _) (.ite ?_ (.ite ?_
      (.ite inferInstance ?_))))
    · exact .bind fun code => .pure fun offset => by simp
    · exact .bind fun code => .pure fun offset => by simp
    · refine .next fun _ => .next fun _ => .next fun _ => .next fun _ => .next fun _ =>
        .next fun _ => .ite (.next fun _ => ?_) (.pure fun _ => Nat.zero_le _)
      exact .through (finds_arrowExpression _ _ fun _ => Nat.zero_le _) fun
        | (_, e) => .pure fun offset => by simp
  · exact .failure

instance stays_mayFollowTypeArguments : Stays mayFollowTypeArguments := by
  unfold mayFollowTypeArguments
  infer_instance

theorem finds_suffix? (calls brackets : Bool) (e : Expr) :
    Finds text (declared e) (suffix? rules calls brackets e) := by
  refine .next fun t => ?_
  split
  · exact .ite inferInstance (.next fun _ => .pure fun offset => by simp)
  · refine .attempt (.bind fun arguments => .next fun _ => .ite ?_ (.next fun _ => .ite ?_ ?_))
    · exact .bind fun inputs => .pure fun offset => by simp; omega
    · exact .bind fun template => .pure fun offset => by simp
    · exact .next fun _ => .next fun _ => .pure fun offset => by simp
  · refine .next fun _ => .next fun _ => .ite ?_ (.next fun _ => .ite ?_ (.next fun _ => .ite ?_
      (.next fun _ => .ite ?_ ?_)))
    · exact .bind fun inputs => .pure fun offset => by simp
    · exact .next fun _ => .bind fun index => .next fun _ => .pure fun offset => by simp
    · exact .bind fun template => .pure fun offset => by simp
    · exact .bind fun arguments => .bind fun inputs => .pure fun offset => by simp; omega
    · exact .next fun _ => .pure fun offset => by simp
  · exact .next fun _ => .next fun _ => .pure fun offset => by simp
  · refine .ite inferInstance (.next fun _ => .bind fun index => .next fun _ =>
      .pure fun offset => by simp)
  · exact .ite inferInstance (.bind fun inputs => .pure fun offset => by simp)
  · exact .bind fun template => .pure fun offset => by simp
  · infer_instance

theorem finds_suffixesUpTo (n : Nat) (calls brackets : Bool) (e : Expr) :
    Finds text (declared e) (suffixesUpTo rules n calls brackets e) := by
  induction n generalizing e with
  | zero => exact inferInstanceAs (Finds text _ failure)
  | succ n ih =>
      exact .tries (finds_suffix? calls brackets e) ih (.pure fun _ => Nat.le_refl _)

theorem finds_suffixes (calls brackets : Bool) (e : Expr) :
    Finds text (declared e) (suffixes rules calls brackets e) :=
  .ite (.pure fun _ => Nat.le_refl _) (.next fun _ => finds_suffixesUpTo _ _ _ _)

instance finds_importExpression : Finds text [] (importExpression rules) := by
  refine .next fun _ => .next fun _ => .ite ?_ ?_
  · exact .next fun _ => .pure fun offset => by simp
  · exact .bind fun inputs => .pure fun offset => by simp

instance finds_newExpression : Finds text [] (newExpression rules) := by
  refine .next fun _ => .next fun _ => .ite (.next fun _ => .pure fun offset => by simp) ?_
  exact .bind fun callee => .next fun _ => .next fun _ => .ite_bind fun arguments =>
    .next fun _ => .ite_bind fun inputs => .pure fun offset => by simp; omega

instance finds_head : Finds text [] (head rules) := by
  refine .next fun _ => .ite inferInstance (.next fun _ => .ite inferInstance (.next fun _ =>
    .ite (.pure fun offset => by simp) inferInstance))

instance finds_applied (calls : Bool) : Finds text [] (applied rules calls) := by
  refine .next fun _ => .next fun _ => .ite (.bind fun code => .pure fun offset => by simp) ?_
  exact .bind fun e => finds_suffixes calls true e

instance finds_awaited : Finds text [] (awaited rules) :=
  .next fun _ => .next fun _ => .next fun _ => .bind fun e => .pure fun offset => by simp

instance finds_unary : Finds text [] (unary rules) := by
  refine .next fun t => .next fun _ => .ite
    (.next fun _ => .next fun _ => .next fun _ => .ite ?_ ?_)
    (.ite ?_ (.ite ?_ (.next fun _ => .ite inferInstance ?_)))
  · exact .next fun _ => .next fun _ => .bind fun e => .pure fun offset => by simp
  · exact .bind fun type => .next fun _ => .bind fun e => .pure fun offset => by simp; omega
  · exact .next fun _ => .bind fun e => .pure fun offset => by simp
  · exact .next fun _ => .bind fun e => .pure fun offset => by simp
  · refine .bind fun e => .ite (.pure fun offset => by simp) (.next fun behind => .ite ?_ ?_)
    · exact .next fun _ => .pure fun offset => by simp
    · exact .pure fun offset => by simp

instance stays_lacksOperand : Stays lacksOperand := by
  refine @stays_bind _ _ _ _ _ fun
    | none => inferInstance
    | some (_, t) => inferInstance

instance finds_binary : Finds text [] (binary rules) := by
  refine .next fun _ => .ite_andThen (.pure fun _ => Nat.zero_le _) inferInstance fun e => ?_
  exact .ite (.pure fun offset => by simp) (finds_operations e)

instance stays_mayBeGeneric : Stays mayBeGeneric := by
  unfold mayBeGeneric
  infer_instance

instance finds_genericArrow : Finds text [] (genericArrow rules) := by
  refine .withReader _ (.bind fun generics => .bind fun e => ?_)
  split
  · exact .pure fun offset => by simp
  · infer_instance

instance finds_yieldExpression : Finds text [] (yieldExpression rules) := by
  refine .next fun _ => .next fun _ => .ite (.pure fun _ => Nat.zero_le _) ?_
  refine .next fun _ => .next fun _ => .next fun _ => .ite ?_ (.pure fun _ => Nat.zero_le _)
  exact .bind fun e => .pure fun offset => by simp

instance finds_assignment : Finds text [] (assignment rules) := by
  refine .next fun first => .withReader _ ?_
  refine .next fun _ => .ite_rejoin (fun rest => .bind fun
    | some e => .pure fun offset => by simp
    | none => rest) ?_
  refine .next fun _ => .next fun _ => .ite inferInstance ?_
  refine .bind fun test => .ite (.pure fun offset => by simp) (.next fun _ => .ite ?_ (.ite ?_ ?_))
  · exact .bind fun code => .pure fun offset => by simp
  · exact .pure fun offset => by simp
  · exact finds_assignmentFrom test

end TypeClosure.Grammar

import TypeClosure.Grammar.Statement
import TypeClosure.Proofs.Grammar.Declaration

/-! What the rules of statements find. -/

namespace TypeClosure.Grammar

open Syntax

variable {text : List Char} {rules : Rules}

@[simp] theorem declared_ofCode (code : List LocalCode) :
    declared (ofCode code) = declared code := by
  simp [ofCode]

instance finds_jumpStatement : Finds text [] jumpStatement := by
  refine .next fun _ => .next fun _ =>
    .ite_rejoin (fun rest => .next fun _ => .next fun _ => rest) ?_
  exact .pure fun _ => Nat.zero_le _

instance stays_isAtRange : Stays isAtRange := by
  unfold isAtRange
  infer_instance

instance stays_startsUsing : Stays startsUsing := by
  unfold startsUsing
  infer_instance

variable [rules.Sound text]

instance finds_substatement : Finds text [] (substatement rules) := by
  unfold substatement
  infer_instance

instance finds_condition : Finds text [] (condition rules) :=
  .next fun _ => .bind fun e => .next fun _ => .pure fun offset => by simp

instance finds_ifStatement : Finds text [] (ifStatement rules) := by
  refine .next fun _ => .bind fun test => .bind fun yes => .next fun _ => .ite ?_ ?_
  · exact .bind fun no => .pure fun offset => by simp
  · exact .pure fun offset => by simp

instance finds_doStatement : Finds text [] (doStatement rules) :=
  .next fun _ => .bind fun body => .next fun _ => .bind fun test => .next fun _ =>
    .pure fun offset => by simp; omega

instance finds_whileStatement : Finds text [] (whileStatement rules) :=
  .next fun _ => .bind fun test => .bind fun body => .pure fun offset => by simp

/-! ### Loops -/

omit [rules.Sound text] in
theorem finds_pure_code (e : Expr) : Finds text (declared e) (pure e.code : Parse (List LocalCode)) :=
  .pure fun _ => Nat.le_refl _

instance finds_loopControl : Finds text [] (loopControl rules) := by
  refine .next fun _ => .meet (fun there => .ite (.andThen inferInstance there)
    (.bind fun e => .frame (finds_pure_code e) there)) fun test => .next fun _ => ?_
  refine .next fun _ => .meet (fun there => .ite (.andThen inferInstance there)
    (.bind fun e => .frame (finds_pure_code e) there)) fun update => .pure fun offset => by simp

instance finds_loopRange : Finds text [] (loopRange rules) := by
  refine .next fun _ => .ite ?_ ?_
  · infer_instance
  · exact .next fun _ => inferInstance

instance finds_usingVariables : Finds text [] (usingVariables rules) := by
  refine .next fun _ => .andThen (.repeated ?_) fun list => .pure fun offset => by simp
  refine .next fun _ => .ite inferInstance
    (.bind fun p => .bind fun ascription => .next fun _ => ?_)
  refine .meet (fun there => .ite (.bind fun e => .frame (finds_pure_code e) there)
    (.andThen inferInstance there)) fun value => .next fun _ => .pure fun offset => by simp

instance finds_loopHead : Finds text [] (loopHead rules) := by
  refine .next fun next => .next fun _ => .next fun _ => .next fun _ => .ite ?_
    (.next fun _ => .ite ?_ (.next fun _ => .next fun _ => .ite ?_ ?_))
  · refine .bind fun code => .next fun _ => .ite ?_ ?_
    · exact .next fun _ => .bind fun range => .pure fun offset => by simp
    · exact .next fun _ => .bind fun control => .pure fun offset => by simp
  · exact .bind fun control => .pure fun offset => by simp
  · refine .next fun _ => .next fun _ => .bind fun p => .next fun _ => .ite ?_ ?_
    · exact .next fun _ => .bind fun range => .pure fun offset => by simp
    · exact .next fun _ => .bind fun value => .next fun _ => .bind fun control =>
        .pure fun offset => by simp
  · refine .bind fun e => .next fun _ => .ite ?_ ?_
    · exact .next fun _ => .next fun _ => .bind fun range => .pure fun offset => by simp
    · exact .next fun _ => .bind fun control => .pure fun offset => by simp

instance finds_forStatement : Finds text [] (forStatement rules) := by
  refine .next fun _ => .next fun _ => .next fun _ => .bind fun
    | (isOf, code) => .next fun _ => .next fun _ => .bind fun body => .pure fun offset => by simp

/-! ### Other statements -/

instance finds_returnStatement : Finds text [] (returnStatement rules) := by
  refine .next fun _ => .next fun _ => .ite (.pure fun _ => Nat.zero_le _) ?_
  exact .bind fun e => .next fun _ => .pure fun offset => by simp

instance finds_throwStatement : Finds text [] (throwStatement rules) :=
  .next fun _ => .next fun _ => .next fun _ => .bind fun e => .next fun _ =>
    .pure fun offset => by simp

instance finds_switchCase : Finds text [] (switchCase rules) := by
  refine .next fun _ => .meet (fun there => .ite
    (.bind fun e => .through (.pure fun offset => by simp) there)
    (.next fun _ => .through inferInstance there)) fun test => .next fun _ => ?_
  refine .andThen (.repeated ?_) fun body => .pure fun offset => by simp
  exact .next fun _ => .next fun _ => .next fun _ => .next fun _ => .ite inferInstance inferInstance

instance finds_switchStatement : Finds text [] (switchStatement rules) :=
  .next fun _ => .bind fun subject => .next fun _ => .bind fun cases => .next fun _ =>
    .pure fun offset => by simp

instance finds_catchClause : Finds text [] (catchClause rules) := by
  refine .next fun _ => .ite (.next fun _ => .meet (fun there => .ite ?_
    (.through inferInstance there)) fun parameter => ?_) inferInstance
  · exact .bind fun p => .bind fun ascription => .next fun _ =>
      .through (.pure fun offset => by simp) there
  · exact .bind fun body => .pure fun offset => by simp

instance finds_finallyClause : Finds text [] (finallyClause rules) := by
  refine .next fun _ => .ite (.bind fun body => .pure fun offset => by simp) inferInstance

instance finds_tryStatement : Finds text [] (tryStatement rules) :=
  .next fun _ => .bind fun body => .bind fun handler => .bind fun last =>
    .pure fun offset => by simp

instance finds_withStatement : Finds text [] (withStatement rules) :=
  .next fun _ => .bind fun subject => .bind fun body => .pure fun offset => by simp

instance finds_labelledStatement : Finds text [] (labelledStatement rules) := by
  refine .next fun _ => .ite ?_ ?_
  · exact .bind fun node => .pure fun offset => by simp
  · exact .bind fun node => .pure fun offset => by simp

instance finds_expressionStatement : Finds text [] (expressionStatement rules) := by
  refine .bind fun e =>
    .ite_rejoin (fun rest => .next fun _ => .ite (.weaken inferInstance) rest) ?_
  refine .next fun _ => .ite (.pure fun offset => by simp) ?_
  exact .through (finds_operations ⟨.other, e.code⟩) fun continued => .next fun _ =>
    .pure fun offset => by simp

/-! ### Declarations -/

instance finds_contextualDeclaration : Finds text [] (contextualDeclaration rules) := by
  refine .from_token fun p within => .peek fun next => ?_
  have starts {word : String} (among : word ∈ declarationWords)
      (spells : p.token.spells word = true) :=
    within.startsDeclaration_of_spells among spells
  have plain {owned : List Nat} {rest : Parse Node} (inside : Finds text [] rest) :
      Finds text owned (rest >>= fun node => pure (some node)) :=
    .weaken (.andThen inside fun node => .pure fun _ => by simp)
  have past {rest : Parse Node} (inside : Finds text [] rest) :
      FindsFrom text [] (advance >>= fun _ => rest >>= fun node => pure (some node)) p :=
    .of_finds within (.next fun _ => plain inside)
  have type {rest : Parse (TypeDecl × List LocalCode)}
      (inside : Finds text [p.token.first.offset] rest) :
      Finds text [p.token.first.offset] (typeNode rest >>= fun node => pure (some node)) :=
    .through (finds_typeNode inside) fun node => .pure fun _ => by simp
  have none : FindsFrom text [] (pure none : Parse (Option Node)) p :=
    .of_finds within inferInstance
  refine .ite
      (fun _ => .ite (fun _ => findsFrom_wordDeclaration_here within) fun _ => none) fun _ =>
    .ite (fun _ => .ite (fun _ => findsFrom_wordDeclaration_here within) fun _ => none) fun _ =>
    .ite (fun _ => .ite (fun _ => ?_) fun _ => none) fun _ =>
    .ite (fun _ => .ite (fun _ => past inferInstance) fun _ => none) fun _ =>
    .ite (fun spells => .ite (fun _ => past inferInstance) fun _ =>
      .ite (fun _ => ?_) fun _ => none) fun _ =>
    .ite (fun _ => .ite (fun _ => past inferInstance) fun _ => none) fun _ =>
    .ite (fun spells => ?_) fun _ => none
  · by_cases isType : p.token.spells "type" = true
    · exact .advance within (starts (by decide) isType) (.ite (type (finds_typeAliasRest _))
        (.ite (plain inferInstance) (plain inferInstance)))
    · simp only [if_neg isType]
      exact .of_finds within (.next fun _ => .ite (plain inferInstance) (plain inferInstance))
  · exact .advance within (starts (by decide) spells) (.next fun _ => type (finds_interfaceRest _))
  · refine .get (.goBack within (.advance within (starts (by decide) spells)
      (finds_ambientDeclaration _)) (fun _ => rfl) rfl)

instance finds_contextualStatement : Finds text [] (contextualStatement rules) :=
  .bind fun
    | some node => .pure fun _ => by simp
    | none => inferInstanceAs (Finds text [] (expressionStatement rules))

instance finds_statement (declarations : Bool) : Finds text [] (statement rules declarations) := by
  refine .withReader _ (.from_token fun p within => .peek fun next => ?_)
  split
  · exact .of_finds within (.bind fun body => .pure fun _ => by simp)
  · exact .of_finds within (.next fun _ => .pure fun _ => Nat.zero_le _)
  · next word same =>
      refine .ite (fun isEnum => ?_) fun _ => .of_finds within ?_
      · have starts : startsDeclaration text p.token.first.offset = true := by
          rw [Bool.and_eq_true, beq_iff_eq] at isEnum
          refine within.startsDeclaration_of_spells (by decide : "const" ∈ declarationWords) ?_
          simp [Token.spells, same, isEnum.1]
        exact .advance within starts (.next fun _ => finds_typeNode (finds_enumRest _))
      refine .ite inferInstance (.ite ?_ (.ite inferInstance (.ite inferInstance
        (.ite inferInstance (.ite inferInstance (.ite inferInstance (.ite inferInstance
        (.ite inferInstance (.ite inferInstance (.ite ?_ (.ite inferInstance (.ite inferInstance
        (.ite inferInstance (.ite inferInstance (.ite ?_ (.next fun _ => .ite ?_ (.ite ?_
        inferInstance)))))))))))))))))
      · exact .next fun _ => .next fun _ => .pure fun _ => Nat.zero_le _
      · exact .next fun _ => .next fun _ => .pure fun _ => Nat.zero_le _
      · exact .next fun _ => .bind fun code => .pure fun _ => by simp
      · exact .next fun _ => .bind fun code => .next fun _ => .pure fun _ => by simp
      · exact .next fun _ => .bind fun e => .next fun _ => .pure fun _ => by simp
  · exact .of_finds within inferInstance
  · exact .of_finds within inferInstance

end TypeClosure.Grammar

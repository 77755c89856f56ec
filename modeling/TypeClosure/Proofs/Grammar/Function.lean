import TypeClosure.Grammar.Function
import TypeClosure.Proofs.Grammar.Type

/-! What the rules of patterns, functions and classes find. -/

namespace TypeClosure.Grammar

open Syntax

variable {text : List Char} {rules : Rules} [rules.Sound text] {α : Type}

/-! ### Expressions and names -/

instance finds_expression : Finds text [] (expression rules) :=
  .bind fun first => .bind fun others => .ite (.pure fun offset => by simp)
    (.pure fun offset => by simp)

instance finds_propertyName : Finds text [] (propertyName rules) := by
  refine .next fun _ => .ite ?_ ?_
  · exact .bind fun key => .next fun _ => .pure fun offset => by simp
  · infer_instance

/-! ### Patterns -/

instance finds_bindingElement : Finds text [] (bindingElement rules) :=
  .bind fun p => .bind fun value => .pure fun offset => by simp

instance finds_elements [Declaring α] (rule : Parse α) [Finds text [] rule] :
    Finds text [] (elements rule) := by
  refine .andThen (.repeated ?_) fun list => .next fun _ => .pure fun offset => by simp
  refine .next fun _ => .ite inferInstance (.next fun _ => .ite ?_ ?_)
  · exact .pure fun offset => by simp
  · exact .bind fun a => .next fun _ => .ite_skip (.pure fun offset => by simp)

instance finds_propertyPattern : Finds text [] (propertyPattern rules) := by
  refine .next fun _ => .ite inferInstance
    (.next fun _ => .bind fun key => .next fun _ => .ite ?_ ?_)
  · exact .bind fun element => .pure fun offset => by simp
  · exact .next fun _ => .bind fun value => .pure fun offset => by simp

instance finds_pattern : Finds text [] (pattern rules) := by
  refine .next fun _ => .ite ?_ (.next fun _ => .ite ?_ ?_)
  · exact .bind fun list => .next fun _ => .ite_skip (.pure fun offset => by simp)
  · exact .bind fun list => .next fun _ => .next fun _ => .ite_skip (.pure fun offset => by simp)
  · exact .next fun _ => .pure fun offset => by simp

/-! ### Functions -/

instance finds_braced [Declaring α] (item : Parse α) [Finds text [] item] :
    Finds text [] (braced item) := by
  refine .next fun _ => .bind fun list => .next fun _ => .pure fun offset => by simp

instance finds_block : Finds text [] (block rules) := by
  unfold block
  infer_instance

instance finds_unconditional [Declaring α] {owned : List Nat} (rule : Parse α)
    [Finds text owned rule] : Finds text owned (unconditional rule) := by
  unfold unconditional
  infer_instance

theorem finds_functionBody {owned : List Nat} (scope : LocalScope) (code : List LocalCode)
    (held : ∀ offset, (declared code).count offset ≤ owned.count offset) :
    Finds text owned (functionBody rules scope code) := by
  refine .next fun _ => .ite ?_ ?_
  · exact .bind fun body => .pure fun offset => by simpa using held offset
  · exact .next fun _ => .pure fun offset => by simpa using held offset

instance finds_functionRest (scope : LocalScope) (async generator : Bool) :
    Finds text [] (functionRest rules scope async generator) := by
  refine .withReader _ ?_
  refine .bind fun generics => .next fun _ => .bind fun list => .bind fun output =>
    finds_functionBody _ _ fun offset => by simp; omega

instance finds_arrowBody (async : Bool) : Finds text [] (arrowBody rules async) := by
  refine .withReader _ (.next fun _ => .ite ?_ ?_)
  · exact .bind fun body => .pure fun offset => by simp
  · exact .bind fun e => .pure fun offset => by simp

instance stays_isAtOptionalName : Stays isAtOptionalName := by
  unfold isAtOptionalName
  infer_instance

instance finds_function (async named : Bool) : Finds text [] (function rules async named) :=
  .next fun _ => .next fun _ => .next fun _ => .ite_skip inferInstance

/-! ### Constructors -/

instance advances_accessModifier? : Advances text accessModifier? := by
  unfold accessModifier?
  infer_instance

instance finds_constructorParameter : Finds text [] (constructorParameter rules) := by
  refine .next fun _ => .ite ?_ ?_
  · exact .bind fun p => .bind fun ascription => .pure fun offset => by simp
  · exact .next fun _ => .next fun _ => .next fun _ => .next fun _ => .next fun _ =>
      .bind fun p => .next fun _ => .pure fun offset => by simp

instance finds_constructorRest : Finds text [] (constructorRest rules) := by
  refine .withReader _ ?_
  refine .bind fun generics => .next fun _ => .bind fun list => .next fun _ =>
    .bind fun ascription => finds_functionBody _ _ fun offset => by simp; omega

/-! ### Members of classes -/

instance finds_classMemberName : Finds text [] (classMemberName rules) := by
  unfold classMemberName
  infer_instance

instance stays_startsMethod : Stays startsMethod := by
  unfold startsMethod
  infer_instance

instance stays_startsProperty (mayEnd : Bool) : Stays (startsProperty mayEnd) := by
  unfold startsProperty
  infer_instance

instance finds_method (async generator : Bool) : Finds text [] (method rules async generator) :=
  .bind fun code => .pure fun offset => by simp

instance finds_propertyRest (isOptional : Bool) :
    Finds text [] (propertyRest rules isOptional) := by
  refine .ite_skip ?_
  exact .bind fun ascription => .bind fun value => .next fun _ => .pure fun offset => by simp

instance finds_namedMember (isReadonly isStatic : Bool) :
    Finds text [] (namedMember rules isReadonly isStatic) := by
  refine .next fun t => .next fun _ => .next fun _ => .ite_bind fun key => .next fun isOptional =>
    .next fun _ => .ite ?_ (.next fun _ => .next fun _ => .next fun _ => .next fun _ => .ite ?_ ?_)
  · exact .next fun _ => .ite (.bind fun rest => .pure fun offset => by simp)
      (.bind fun rest => .pure fun offset => by simp)
  · exact .next fun _ => .bind fun rest => .pure fun offset => by simp
  · refine .next fun _ => .ite ?_ ?_
    · exact .next fun _ => .next fun _ => .next fun _ => .bind fun key' => .next fun _ =>
        .bind fun rest => .pure fun offset => by simp
    · exact .next fun _ => .bind fun key' => .bind fun rest => .pure fun offset => by simp

instance finds_classMember : Finds text [] (classMember rules) := by
  refine .next fun _ => .ite_rejoin (fun rest => .next fun _ => .ite inferInstance
    (.next fun _ => .next fun _ => .ite (.next fun _ => inferInstance) rest)) ?_
  refine .next fun access => .next fun _ => .next fun isStatic => .ite_rejoin (fun rest =>
    .next fun _ => .ite inferInstance (.next fun _ => .next fun _ =>
      .ite (.next fun _ => inferInstance) (.next fun _ => .ite ?_ rest))) ?_
  · exact .bind fun body => .pure fun offset => by simp
  refine .next fun found => .ite_rejoin (fun rest => .bind fun
    | some code => .pure fun offset => by simp
    | none => rest) (.next fun _ => .ite ?_ inferInstance)
  exact .bind fun key => .bind fun rest => .pure fun offset => by simp

/-! ### Classes -/

instance finds_superclass : Finds text [] (superclass rules) := by
  refine .bind fun base => .next fun _ => .ite ?_ ?_
  · exact .bind fun arguments => .pure fun offset => by simp
  · exact .pure fun offset => by simp

instance finds_implemented : Finds text [] (implemented rules) :=
  .bind fun list => .pure fun offset => by simp

theorem finds_clause (word : String) {rule : Parse (List LocalCode)} (inside : Finds text [] rule) :
    Finds text [] (clause word rule) :=
  .next fun _ => .ite inside inferInstance

instance finds_classHeritage : Finds text [] (classHeritage rules) := by
  refine .andThen (finds_clause _ ?_) fun bases =>
    .andThen (finds_clause _ inferInstance) fun secondBase =>
    .andThen (finds_clause _ inferInstance) fun types =>
    .andThen (finds_clause _ inferInstance) fun moreTypes =>
    .andThen (finds_clause _ inferInstance) fun lateBase => .pure fun offset => by simp
  refine .bind fun base => .next fun _ => .ite ?_ ?_
  · exact .bind fun types => .pure fun offset => by simp
  · exact .pure fun offset => by simp

instance finds_classRest (named : Bool) : Finds text [] (classRest rules named) := by
  refine .next fun _ => .next fun _ =>
    .ite_rejoin (fun rest => .next fun _ => .next fun _ => .next fun _ => rest) ?_
  refine .bind fun generics => .bind fun heritage => .next fun _ => .andThen ?_ fun list =>
    .next fun _ => .pure fun offset => by simp
  refine .withReader _ (.repeated ?_)
  exact .next fun _ => .ite inferInstance (.next fun _ => .ite (.pure fun offset => by simp)
    inferInstance)

end TypeClosure.Grammar

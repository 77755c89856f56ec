import TypeClosure.Grammar.Type
import TypeClosure.Proofs.Grammar.Finding

/-! What the rules of types, members and signatures find. -/

namespace TypeClosure.Grammar

open Syntax

variable {text : List Char} {rules : Rules}

instance declaringTupleElement : Declaring TupleElement := ⟨fun _ => []⟩
instance bare_tupleElement : Bare TupleElement := ⟨fun _ => rfl⟩

/-! ### Parameters -/

instance advances_modifier? (allowed : List String) : Advances text (modifier? allowed) := by
  refine .bind fun t => ?_
  split
  · infer_instance
  · infer_instance

instance advances_skipParameterModifier : Advances text skipParameterModifier := by
  unfold skipParameterModifier
  infer_instance

instance finds_initializedBy (value : Parse Expr) [Finds text [] value] :
    Finds text [] (initializedBy value) := by
  unfold initializedBy
  infer_instance

section

variable [rules.Sound text]

instance finds_typeAnnotation? : Finds text [] (typeAnnotation? rules) := by
  unfold typeAnnotation?
  infer_instance

instance finds_typeAnnotationCode : Finds text [] (typeAnnotationCode rules) :=
  .bind fun ascription => .pure fun offset => by simp

instance finds_initializer? : Finds text [] (initializer? rules) := by
  unfold initializer?
  infer_instance

instance finds_parameter : Finds text [] (parameter rules) := by
  refine .next fun _ => .ite ?_ ?_
  · exact .bind fun p => .bind fun value => .bind fun ascription => .next fun _ =>
      .pure fun offset => by simp; omega
  · exact .next fun _ => .bind fun p => .bind fun early => .next fun _ => .next fun _ =>
      .next fun _ => .bind fun ascription => .bind fun late => .pure fun offset => by simp; omega

instance finds_parameters : Finds text [] (parameters rules) := by
  unfold parameters
  exact .bind fun list => .next fun _ => .pure fun offset => by simp

instance finds_signatureParameters : Finds text [] (signatureParameters rules) :=
  .bind fun list => .next fun _ => .pure fun offset => by simp

/-! ### Type parameters and arguments -/

instance finds_introducedType (introduced : Parse Bool) [Advances text introduced] :
    Finds text [] (introducedType rules introduced) := by
  unfold introducedType
  infer_instance

instance finds_typeParameter : Finds text [] (typeParameter rules) :=
  .next fun _ => .next fun _ => .bind fun constraint => .bind fun default =>
    .pure fun offset => by simp

instance finds_typeParameters : Finds text [] (typeParameters rules) :=
  .next fun _ => .ite (.bind fun list => .next fun _ => .pure fun offset => by simp) inferInstance

instance finds_typeArguments : Finds text [] (typeArguments rules) :=
  .next fun _ => .bind fun list => .next fun _ => .pure fun offset => by simp

instance finds_typeArgumentsOnLine : Finds text [] (typeArgumentsOnLine rules) := by
  unfold typeArgumentsOnLine
  infer_instance

/-! ### Signatures -/

instance finds_returnType (introduced : Mark) : Finds text [] (returnType rules introduced) := by
  refine .next fun _ => .next fun next => .next fun _ => .ite ?_ (.next fun _ => .ite ?_ ?_)
  · exact .next fun _ => .next fun _ => inferInstance
  · infer_instance
  · infer_instance

instance finds_returnAnnotation : Finds text [] <| returnAnnotation rules := by
  unfold returnAnnotation
  infer_instance

instance finds_signature : Finds text [] (signature rules) :=
  .bind fun generics => .next fun _ => .bind fun inputs => .bind fun output =>
    .pure fun offset => by simp; omega

/-! ### Members -/

instance advances_endMember : Advances text endMember := by
  unfold endMember
  infer_instance

instance finds_memberName : Finds text [] (memberName rules) := by
  refine .next fun _ => .ite inferInstance (.next fun _ => .ite ?_ inferInstance)
  exact .bind fun key => .next fun _ => .pure fun offset => by simp

instance finds_indexSignature? : Finds text [] (indexSignature? rules) := by
  refine .next fun _ => .ite ?_ inferInstance
  exact .next fun _ => .next fun _ => .next fun _ => .bind fun key => .next fun _ =>
    .bind fun value => .next fun _ => .pure fun offset => by simp

instance finds_accessorSignature : Finds text [] (accessorSignature rules) := by
  refine .next fun _ => .ite ?_ ?_
  · exact .bind fun key => .next fun _ => .next fun _ => .bind fun ascription => .next fun _ =>
      .pure fun offset => by simp
  · refine .next fun _ => .bind fun key => .next fun _ => .bind fun list => .next fun _ =>
      .next fun _ => .pure fun offset => ?_
    cases list with
    | nil => simp
    | cons p rest => simp

instance finds_propertyOrMethod (isReadonly : Bool) :
    Finds text [] (propertyOrMethod rules isReadonly) := by
  refine .bind fun key => .next fun _ => .next fun _ => .next fun _ => .ite ?_ ?_
  · exact .next fun _ => .bind fun code => .next fun _ => .pure fun offset => by simp
  · exact .bind fun ascription => .next fun _ => .pure fun offset => by simp

instance finds_member : Finds text [] (member rules) := by
  refine .next fun _ => .next fun _ => .ite ?_ (.next fun next => .next fun _ => .ite ?_ ?_)
  · exact .bind fun code => .next fun _ => .pure fun offset => by simp
  · exact .next fun _ => .bind fun code => .next fun _ => .pure fun offset => by simp
  · refine .next fun word => .bind fun
      | some code => .pure fun offset => by simp
      | none => .ite (.bind fun
          | some code => .pure fun offset => by simp
          | none => finds_propertyOrMethod _) (finds_propertyOrMethod _)

instance finds_members : Finds text [] (members rules) :=
  .next fun _ => .bind fun list => .next fun _ => .pure fun offset => by simp

/-! ### Types -/

instance advances_dottedNameOf (selected : Parse String) [Advances text selected] :
    Advances text (dottedNameOf selected) := by
  unfold dottedNameOf
  infer_instance

instance advances_dottedName : Advances text dottedName := by
  unfold dottedName
  infer_instance

omit [rules.Sound text] in
theorem finds_ending {owned : List Nat} (first : Cursor) (make : String → TypeExpr)
    (code : List LocalCode)
    (held : ∀ offset, (declared code).count offset ≤ owned.count offset) :
    Finds text owned (ending first make code) :=
  .next fun _ => .pure fun offset => by simpa using held offset

instance finds_reference : Finds text [] (reference rules) :=
  .next fun _ => .next fun _ => .next fun _ => .bind fun arguments =>
    finds_ending _ _ _ fun offset => by simp

instance finds_importAttributes : Finds text [] (importAttributes rules) := by
  refine .next fun _ => .ite ?_ inferInstance
  exact .next fun _ => .next fun _ => .next fun _ => .next fun _ => .bind fun attributes =>
    .next fun _ => .next fun _ => .pure fun offset => by simp

instance finds_importedName : Finds text [] (importedName rules) := by
  refine .next fun _ => .next fun _ => .next fun _ => .next fun _ => .next fun _ => .next fun _ =>
    .ite_bind fun attributes => .next fun _ => .next fun _ => .ite_skip ?_
  exact .next fun _ => .ite (.bind fun arguments => .pure fun offset => by simp)
    (.pure fun offset => by simp)

instance finds_typeQuery : Finds text [] (typeQuery rules) := by
  refine .next fun _ => .next fun _ => .ite ?_ (.next fun _ => inferInstance)
  exact .bind fun imported => .bind fun arguments => .pure fun offset => by simp

instance finds_templateUpTo (n : Nat) (isTagged : Bool) (inner : Parse (List LocalCode))
    [Finds text [] inner] : Finds text [] (templateUpTo n isTagged inner) := by
  induction n with
  | zero => exact inferInstanceAs (Finds text [] failure)
  | succ n ih =>
      refine .from_get fun p within => ?_
      dsimp only
      split
      · exact .failure
      · next piece =>
          refine .peek fun _ => .resume within (before_templateText? piece) ?_
          split
          · exact finds_pure_nil
          · exact .bind fun code => .next fun _ => .bind fun rest => .pure fun offset => by simp

instance finds_template (isTagged : Bool) (inner : Parse (List LocalCode))
    [Finds text [] inner] : Finds text [] (template isTagged inner) := by
  unfold template
  infer_instance

instance finds_tupleElement : Finds text [] (tupleElement rules) := by
  refine .next fun _ => .next fun _ => .ite ?_ ?_
  · exact .bind fun t => .pure fun offset => by simp
  · exact .bind fun t => .next fun _ => .ite (.pure fun offset => by simp)
      (.pure fun offset => by simp)

instance finds_tuple : Finds text [] (tuple rules) :=
  .next fun _ => .bind fun list => .next fun _ => .next fun _ => .pure fun offset => by simp

instance stays_startsMappedType : Stays startsMappedType := by
  unfold startsMappedType
  infer_instance

instance finds_mappedType : Finds text [] (mappedType rules) := by
  refine .next fun _ => .next fun _ => .ite_next ?_
  refine .next fun _ => .next fun _ => .next fun _ => .bind fun constraint =>
    .bind fun renamed => .next fun _ => .next fun _ => .ite_next ?_
  exact .bind fun ascription => .next fun _ => .next fun _ => .pure fun offset => by simp

instance finds_predicateOnThis (first : Cursor) : Finds text [] (predicateOnThis rules first) := by
  refine .next fun _ => .next fun _ => .next fun _ => .ite ?_ ?_
  · exact .next fun _ => .bind fun t => finds_ending _ _ _ fun offset => by simp
  · exact finds_ending _ _ _ fun offset => by simp

instance finds_primaryType : Finds text [] (primaryType rules) := by
  refine .next fun first => .next fun t => ?_
  have plain : Finds text [] (ending first .other []) := finds_ending _ _ _ fun offset => by simp
  split
  · exact .next fun _ => plain
  · exact .next fun _ => plain
  · exact .next fun _ => plain
  · exact .next fun _ => .next fun _ => .next fun _ => .next fun _ => plain
  · exact .bind fun code => finds_ending _ _ _ fun offset => by simp
  · refine .next fun _ => .ite ?_ ?_
    · exact .bind fun code => finds_ending _ _ _ fun offset => by simp
    · refine .bind fun
        | (list, code) => finds_ending _ _ _ fun offset => by simp
  · exact .bind fun code => finds_ending _ _ _ fun offset => by simp
  · exact .next fun _ => .bind fun inner => .next fun _ => finds_ending _ _ _ fun offset => by simp
  · refine .ite (.next fun _ => plain) (.ite ?_ (.ite ?_ (.ite inferInstance ?_)))
    · exact .bind fun code => finds_ending _ _ _ fun offset => by simp
    · exact .bind fun code => finds_ending _ _ _ fun offset => by simp
    · exact .next fun _ => .ite (.next fun _ => inferInstance)
        (.next fun _ => .ite (.next fun _ => plain) inferInstance)
  · infer_instance

theorem finds_bracketsUpTo (n : Nat) (first : Cursor) (t : TypeSyntax) :
    Finds text (declared t) (bracketsUpTo rules n first t) := by
  induction n generalizing t with
  | zero => exact inferInstanceAs (Finds text _ failure)
  | succ n ih =>
      refine .next fun _ => .next fun _ => .ite (.pure fun offset => by simp) ?_
      refine .next fun _ => .next fun _ => .ite
        (.next fun array => ih ⟨.array array t.type, t.code⟩) ?_
      refine .bind fun index => .next fun _ => .next fun array => ?_
      have rest := ih ⟨.other array, t.code ++ index.code⟩
      simpa using rest

instance finds_inferredType : Finds text [] (inferredType rules) := by
  refine .next fun first => .next fun _ => .next fun _ => ?_
  refine .andThen (.attempt ?_) fun constraint => finds_ending _ _ _ fun offset => by simp
  exact .next fun _ => .bind fun t => .next fun _ => .next fun _ => .next fun _ =>
    .pure fun offset => by simp

instance finds_typeOperand : Finds text [] (typeOperand rules) := by
  refine .next fun first => .next fun _ => .next fun _ => .next fun _ => .ite ?_ ?_
  · exact .next fun _ => .bind fun t => finds_ending _ _ _ fun offset => by simp
  · exact .next fun _ => .ite inferInstance
      (.bind fun t => .next fun _ => finds_bracketsUpTo _ first t)

instance finds_joined (operator : Mark) (make : String → List TypeExpr → TypeExpr)
    (operand : Parse TypeSyntax) [Finds text [] operand] :
    Finds text [] (joined operator make operand) := by
  refine .next fun first => .next fun _ => .bind fun t => .next fun _ => .ite ?_ ?_
  · exact .bind fun others => finds_ending _ _ _ fun offset => by simp
  · exact .pure fun offset => by simp

instance finds_functionType : Finds text [] (functionType rules) :=
  .next fun first => .next fun _ => .next fun _ => .bind fun generics => .next fun _ =>
    .bind fun inputs => .bind fun output => finds_ending _ _ _ fun offset => by simp; omega

instance stays_startsFunctionType : Stays (startsFunctionType rules) := by
  unfold startsFunctionType
  infer_instance

instance finds_nonConditionalType : Finds text [] (nonConditionalType rules) := by
  unfold nonConditionalType
  infer_instance

instance finds_boundType : Finds text [] (boundType rules) := by
  unfold boundType
  infer_instance

instance finds_type : Finds text [] (type rules) := by
  refine .withReader _ ?_
  refine .next fun first => .bind fun check => .next fun _ => .next fun _ =>
    .ite (.pure fun offset => by simp) ?_
  exact .next fun _ => .bind fun bound => .next fun _ => .bind fun yes => .next fun _ =>
    .bind fun no => finds_ending _ _ _ fun offset => by simp

end

end TypeClosure.Grammar

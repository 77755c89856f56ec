import TypeClosure.Grammar.Module
import TypeClosure.Proofs.Grammar.Placement

/-!
The rules of the grammar, from those for types to those for files: a rule for a part of a
statement answers statements, and only the items of a module are exports.
-/

namespace TypeClosure

namespace Grammar

open Syntax

-- What stands behind a branch without an `else` is answered for once for each of the ways there.
set_option synthInstance.maxSize 1000000

variable {rules : Rules} [rules.Orderly] {α : Type}

/-! ### Type -/

instance answers_typeAnnotation? : Answers tidy (typeAnnotation? rules) := by
  unfold typeAnnotation?
  infer_instance

instance answers_typeAnnotationCode : Answers tidy (typeAnnotationCode rules) := by
  unfold typeAnnotationCode
  infer_instance

instance answers_initializedBy (value : Parse Expr) [Answers tidy value] :
    Answers tidy (initializedBy value) := by
  unfold initializedBy
  infer_instance

instance answers_initializer? : Answers tidy (initializer? rules) := by
  unfold initializer?
  infer_instance

instance answers_parameter : Answers tidy (parameter rules) := by
  unfold parameter
  infer_instance

instance answers_parameters : Answers tidy (parameters rules) := by
  unfold parameters
  infer_instance

instance answers_signatureParameters : Answers tidy (signatureParameters rules) := by
  unfold signatureParameters
  infer_instance

instance answers_introducedType (introduced : Parse Bool) :
    Answers tidy (introducedType rules introduced) := by
  unfold introducedType
  infer_instance

instance answers_typeParameter : Answers tidy (typeParameter rules) := by
  unfold typeParameter
  infer_instance

instance answers_typeParameters : Answers tidy (typeParameters rules) := by
  unfold typeParameters
  infer_instance

instance answers_typeArguments : Answers tidy (typeArguments rules) := by
  unfold typeArguments
  infer_instance

instance answers_typeArgumentsOnLine : Answers tidy (typeArgumentsOnLine rules) := by
  unfold typeArgumentsOnLine
  infer_instance

instance answers_returnType (introduced : Mark) : Answers tidy (returnType rules introduced) := by
  unfold returnType
  infer_instance

instance answers_returnAnnotation : Answers tidy <| returnAnnotation rules := by
  unfold returnAnnotation
  infer_instance

instance answers_signature : Answers tidy (signature rules) := by
  unfold signature
  infer_instance

instance answers_memberName : Answers tidy (memberName rules) := by
  unfold memberName
  infer_instance

instance answers_indexSignature? : Answers tidy (indexSignature? rules) := by
  unfold indexSignature?
  infer_instance

instance answers_accessorSignature : Answers tidy (accessorSignature rules) := by
  unfold accessorSignature
  infer_instance

instance answers_propertyOrMethod (isReadonly : Bool) :
    Answers tidy (propertyOrMethod rules isReadonly) := by
  unfold propertyOrMethod
  infer_instance

instance answers_member : Answers tidy (member rules) := by
  unfold member
  infer_instance

instance answers_members : Answers tidy (members rules) := by
  unfold members
  infer_instance

instance answers_ending (first : Cursor) (make : String → TypeExpr) (code : List LocalCode)
    [IsTidy code] :
    Answers tidy (ending first make code) := by
  unfold ending
  infer_instance

instance answers_reference : Answers tidy (reference rules) := by
  unfold reference
  infer_instance

instance answers_importAttributes : Answers tidy (importAttributes rules) := by
  unfold importAttributes
  infer_instance

instance answers_importedName : Answers tidy (importedName rules) := by
  unfold importedName
  dsimp only
  infer_instance

instance answers_typeQuery : Answers tidy (typeQuery rules) := by
  unfold typeQuery
  infer_instance

instance answers_templateUpTo (n : Nat) (isTagged : Bool) (inner : Parse (List LocalCode))
    [Answers tidy inner] :
    Answers tidy (templateUpTo n isTagged inner) := by
  induction n with
  | zero => exact answers_failure
  | succ n ih =>
    refine .next fun p => ?_
    dsimp only
    split
    · infer_instance
    · refine .next fun _ => .next fun _ => ?_
      split
      · infer_instance
      · infer_instance

instance answers_template (isTagged : Bool) (inner : Parse (List LocalCode)) [Answers tidy inner] :
    Answers tidy (template isTagged inner) := by
  unfold template
  infer_instance

instance answers_tupleElement : Answers tidy (tupleElement rules) := by
  unfold tupleElement
  infer_instance

instance answers_tuple : Answers tidy (tuple rules) := by
  unfold tuple
  infer_instance

instance answers_mappedType : Answers tidy (mappedType rules) := by
  unfold mappedType
  dsimp only
  infer_instance

instance answers_predicateOnThis (first : Cursor) : Answers tidy (predicateOnThis rules first) := by
  unfold predicateOnThis
  infer_instance

instance answers_primaryType : Answers tidy (primaryType rules) := by
  refine .next fun first => .next fun t => ?_
  split
  all_goals infer_instance

instance answers_bracketsUpTo (n : Nat) (first : Cursor) (t : TypeSyntax) [IsTidy t] :
    Answers tidy (bracketsUpTo rules n first t) := by
  induction n generalizing t with
  | zero => exact answers_failure
  | succ n ih =>
    unfold bracketsUpTo
    infer_instance

instance answers_inferredType : Answers tidy (inferredType rules) := by
  unfold inferredType
  infer_instance

instance answers_typeOperand : Answers tidy (typeOperand rules) := by
  unfold typeOperand
  infer_instance

instance answers_joined (operator : Mark) (make : String → List TypeExpr → TypeExpr)
    (operand : Parse TypeSyntax) [Answers tidy operand] :
    Answers tidy (joined operator make operand) := by
  unfold joined
  infer_instance

instance answers_functionType : Answers tidy (functionType rules) := by
  unfold functionType
  infer_instance

instance answers_nonConditionalType : Answers tidy (nonConditionalType rules) := by
  unfold nonConditionalType
  infer_instance

instance answers_boundType : Answers tidy (boundType rules) := by
  unfold boundType
  infer_instance

instance answers_type : Answers tidy (type rules) := by
  unfold type
  infer_instance

/-! ### Function -/

instance answers_expression : Answers tidy (expression rules) := by
  unfold expression
  infer_instance

instance answers_propertyName : Answers tidy (propertyName rules) := by
  unfold propertyName
  infer_instance

instance answers_bindingElement : Answers tidy (bindingElement rules) := by
  unfold bindingElement
  infer_instance

instance answers_elements [Tidy α] (rule : Parse α) [Answers tidy rule] :
    Answers tidy (elements rule) := by
  unfold elements
  dsimp only
  infer_instance

instance answers_propertyPattern : Answers tidy (propertyPattern rules) := by
  unfold propertyPattern
  infer_instance

instance answers_pattern : Answers tidy (pattern rules) := by
  unfold pattern
  infer_instance

instance answers_block : Answers tidy (block rules) := by
  unfold block
  infer_instance

instance answers_inFunction [Tidy α] (async generator : Bool) (rule : Parse α)
    [Answers tidy rule] :
    Answers tidy (inFunction async generator rule) := by
  unfold inFunction
  infer_instance

instance answers_unconditional [Tidy α] (rule : Parse α) [Answers tidy rule] :
    Answers tidy (unconditional rule) := by
  unfold unconditional
  infer_instance

instance answers_functionBody (scope : LocalScope) (code : List LocalCode) [IsTidy code] :
    Answers tidy (functionBody rules scope code) := by
  unfold functionBody
  infer_instance

instance answers_functionRest (scope : LocalScope) (async generator : Bool) :
    Answers tidy (functionRest rules scope async generator) := by
  unfold functionRest
  infer_instance

instance answers_arrowBody (async : Bool) : Answers tidy (arrowBody rules async) := by
  unfold arrowBody
  infer_instance

instance answers_function (async named : Bool) : Answers tidy (function rules async named) := by
  unfold function
  infer_instance

instance answers_constructorParameter : Answers tidy (constructorParameter rules) := by
  unfold constructorParameter
  infer_instance

instance answers_constructorRest : Answers tidy (constructorRest rules) := by
  unfold constructorRest
  infer_instance

instance answers_classMemberName : Answers tidy (classMemberName rules) := by
  unfold classMemberName
  infer_instance

instance answers_method (async generator : Bool) : Answers tidy (method rules async generator) := by
  unfold method
  infer_instance

instance answers_propertyRest (isOptional : Bool) :
    Answers tidy (propertyRest rules isOptional) := by
  unfold propertyRest
  infer_instance

instance answers_namedMember (isReadonly isStatic : Bool) :
    Answers tidy (namedMember rules isReadonly isStatic) := by
  unfold namedMember
  infer_instance

instance answers_classMember : Answers tidy (classMember rules) := by
  unfold classMember
  dsimp only
  infer_instance

instance answers_superclass : Answers tidy (superclass rules) := by
  unfold superclass
  infer_instance

instance answers_implemented : Answers tidy (implemented rules) := by
  unfold implemented
  infer_instance

instance answers_clause (word : String) (rule : Parse (List LocalCode)) [Answers tidy rule] :
    Answers tidy (clause word rule) := by
  unfold clause
  infer_instance

instance answers_classHeritage : Answers tidy (classHeritage rules) := by
  unfold classHeritage
  infer_instance

instance answers_classRest (named : Bool) : Answers tidy (classRest rules named) := by
  unfold classRest
  dsimp only
  infer_instance

/-! ### Element -/

instance answers_spreadAttribute : Answers tidy (spreadAttribute rules) := by
  unfold spreadAttribute
  infer_instance

instance answers_container : Answers tidy (container rules) := by
  unfold container
  infer_instance

instance answers_attributeValue : Answers tidy (attributeValue rules) := by
  refine .next fun first => ?_
  split
  · split
    · infer_instance
    · infer_instance
  · infer_instance

instance answers_attributes : Answers tidy (attributes rules) := by
  unfold attributes
  infer_instance

instance answers_children : Answers tidy (children rules) := by
  unfold children
  infer_instance

instance answers_element : Answers tidy (element rules) := by
  unfold element
  dsimp only
  infer_instance

/-! ### Expression -/

instance answers_spreadable : Answers tidy (spreadable rules) := by
  unfold spreadable
  infer_instance

instance answers_arrayLiteral : Answers tidy (arrayLiteral rules) := by
  unfold arrayLiteral
  infer_instance

instance answers_objectProperty : Answers tidy (objectProperty rules) := by
  refine .next fun _ => ?_
  split
  · infer_instance
  · refine .next fun _ => ?_
    split
    · infer_instance
    · refine .next fun _ => .next fun _ => .bind fun key => .next fun _ => ?_
      split
      · infer_instance
      · refine .next fun _ => .next fun _ => ?_
        split
        · infer_instance
        · split <;> infer_instance

instance answers_objectLiteral : Answers tidy (objectLiteral rules) := by
  unfold objectLiteral
  infer_instance

instance answers_templateLiteral (isTagged : Bool) :
    Answers tidy (templateLiteral rules isTagged) := by
  unfold templateLiteral
  infer_instance

instance answers_arrowExpression (async : Bool) (code : List LocalCode) [IsTidy code] :
    Answers tidy (arrowExpression rules async code) := by
  unfold arrowExpression
  infer_instance

instance answers_assignmentFrom (target : Expr) [IsTidy target] :
    Answers tidy (assignmentFrom rules target) := by
  unfold assignmentFrom
  infer_instance

instance answers_branches : Answers tidy (branches rules) := by
  unfold branches
  infer_instance

instance answers_parenthesizedItem : Answers tidy (parenthesizedItem rules) := by
  refine .next fun _ => .next fun _ => .next fun _ => .next fun _ => .bind fun plain => ?_
  refine .next fun _ => .next fun _ => ?_
  split
  · refine .next fun _ => ?_
    split <;> infer_instance
  · infer_instance

instance answers_operationsUpTo (n least : Nat) (e : Expr) [IsTidy e] :
    Answers tidy (operationsUpTo rules n least e) := by
  induction n generalizing least e with
  | zero => exact answers_failure
  | succ n ih =>
    refine .next fun t => ?_
    split
    · infer_instance
    · refine .next fun _ => ?_
      split <;> infer_instance

instance answers_operations (left : Expr) [IsTidy left] : Answers tidy (operations rules left) := by
  unfold operations
  infer_instance

instance answers_behindArrow (isBlock : Bool) (e : Expr) [IsTidy e] :
    Answers tidy (behindArrow rules isBlock e) := by
  unfold behindArrow
  infer_instance

instance answers_parenthesized (async : Bool) : Answers tidy (parenthesized rules async) := by
  unfold parenthesized
  dsimp only
  infer_instance

instance answers_callArguments : Answers tidy (callArguments rules) := by
  unfold callArguments
  infer_instance

instance answers_asyncExpression : Answers tidy (asyncExpression rules) := by
  unfold asyncExpression
  infer_instance

instance answers_primary : Answers tidy (primary rules) := by
  refine .next fun t => ?_
  split
  case h_9 | h_10 =>
    refine .next fun _ => ?_
    split <;> infer_instance
  all_goals infer_instance

instance answers_suffix? (calls brackets : Bool) (e : Expr) [IsTidy e] :
    Answers tidy (suffix? rules calls brackets e) := by
  refine .next fun t => ?_
  split
  all_goals infer_instance

instance answers_suffixesUpTo (n : Nat) (calls brackets : Bool) (e : Expr) [IsTidy e] :
    Answers tidy (suffixesUpTo rules n calls brackets e) := by
  induction n generalizing e with
  | zero => exact answers_failure
  | succ n ih =>
    unfold suffixesUpTo
    infer_instance

instance answers_suffixes (calls brackets : Bool) (e : Expr) [IsTidy e] :
    Answers tidy (suffixes rules calls brackets e) := by
  unfold suffixes
  infer_instance

instance answers_importExpression : Answers tidy (importExpression rules) := by
  unfold importExpression
  infer_instance

instance answers_newExpression : Answers tidy (newExpression rules) := by
  unfold newExpression
  dsimp only
  infer_instance

instance answers_head : Answers tidy (head rules) := by
  unfold head
  infer_instance

instance answers_applied (calls : Bool) : Answers tidy (applied rules calls) := by
  unfold applied
  infer_instance

instance answers_awaited : Answers tidy (awaited rules) := by
  unfold awaited
  infer_instance

instance answers_unary : Answers tidy (unary rules) := by
  unfold unary
  infer_instance

instance answers_binary : Answers tidy (binary rules) := by
  unfold binary
  infer_instance

instance answers_genericArrow : Answers tidy (genericArrow rules) := by
  unfold genericArrow
  refine @answers_withReader Expr _ _ _ ?_
  refine .bind fun generics => .bind fun e => ?_
  split
  · next parts same =>
      have held : tidy e.val := e.isTidy
      rw [same] at held
      cases held _ (List.mem_singleton_self _) with
      | mk all =>
        have : IsTidy parts := ⟨all⟩
        infer_instance
  · infer_instance

instance answers_yieldExpression : Answers tidy (yieldExpression rules) := by
  unfold yieldExpression
  infer_instance

instance answers_assignment : Answers tidy (assignment rules) := by
  unfold assignment
  infer_instance

/-! ### Declaration -/

instance answers_heritageUpTo (n : Nat) (first : Cursor) (code : List LocalCode) [IsTidy code] :
    Answers tidy (heritageUpTo rules n first code) := by
  induction n generalizing code with
  | zero => exact answers_failure
  | succ n ih =>
    unfold heritageUpTo
    infer_instance

instance answers_heritage : Answers tidy (heritage rules) := by
  unfold heritage
  infer_instance

instance answers_interfaceRest (first : Cursor) : Answers tidy (interfaceRest rules first) := by
  unfold interfaceRest
  infer_instance

instance answers_typeAliasRest (first : Cursor) : Answers tidy (typeAliasRest rules first) := by
  unfold typeAliasRest
  infer_instance

instance answers_enumMemberName : Answers tidy (enumMemberName rules) := by
  unfold enumMemberName
  infer_instance

instance answers_enumMembersUpTo (n : Nat) : Answers tidy (enumMembersUpTo rules n) := by
  induction n with
  | zero => exact answers_failure
  | succ n ih =>
    unfold enumMembersUpTo
    infer_instance

instance answers_enumRest (first : Cursor) : Answers tidy (enumRest rules first) := by
  unfold enumRest
  infer_instance

instance answers_typeNode (rest : Parse (TypeDecl × List LocalCode)) [Answers tidy rest] :
    Answers tidy (typeNode rest) := by
  unfold typeNode
  infer_instance

instance answers_namespaceBody : Answers tidy (namespaceBody rules) :=
  .andThen (.braced Rules.Orderly.moduleItem) fun _ all => .pure (.module all)

instance answers_namespaceRest : Answers tidy (namespaceRest rules) := by
  unfold namespaceRest
  infer_instance

instance answers_ambientModuleRest : Answers tidy (ambientModuleRest rules) := by
  have : Answers tidy (pure (Node.module []) : Parse Node) :=
    .pure (.module fun _ member => absurd member List.not_mem_nil)
  unfold ambientModuleRest
  infer_instance

instance answers_oneVariable (kind : VariableKind) : Answers tidy (oneVariable rules kind) := by
  unfold oneVariable
  infer_instance

instance answers_variablesUpTo (n : Nat) (kind : VariableKind) :
    Answers tidy (variablesUpTo rules n kind) := by
  induction n with
  | zero => exact answers_failure
  | succ n ih =>
    unfold variablesUpTo
    infer_instance

instance answers_variableList (inLoopHead : Bool) :
    Answers tidy (variableList rules inLoopHead) := by
  unfold variableList
  infer_instance

instance answers_variableStatement : Answers tidy (variableStatement rules) := by
  unfold variableStatement
  infer_instance

instance answers_functionDeclaration : Answers tidy (functionDeclaration rules) := by
  unfold functionDeclaration
  infer_instance

instance answers_classDeclaration : Answers tidy (classDeclaration rules) := by
  unfold classDeclaration
  infer_instance

instance answers_wordDeclaration (first : Cursor) : Answers tidy (wordDeclaration rules first) := by
  unfold wordDeclaration
  infer_instance

instance answers_ambientDeclaration (first : Cursor) :
    Answers tidy (ambientDeclaration rules first) := by
  unfold ambientDeclaration
  infer_instance

/-! ### Statement -/

instance answers_substatement : Answers tidy (substatement rules) := by
  unfold substatement
  infer_instance

instance answers_condition : Answers tidy (condition rules) := by
  unfold condition
  infer_instance

instance answers_jumpStatement : Answers tidy (jumpStatement) := by
  unfold jumpStatement
  infer_instance

instance answers_ifStatement : Answers tidy (ifStatement rules) := by
  unfold ifStatement
  infer_instance

instance answers_doStatement : Answers tidy (doStatement rules) := by
  unfold doStatement
  infer_instance

instance answers_whileStatement : Answers tidy (whileStatement rules) := by
  unfold whileStatement
  infer_instance

instance answers_loopControl : Answers tidy (loopControl rules) := by
  unfold loopControl
  infer_instance

instance answers_loopRange : Answers tidy (loopRange rules) := by
  unfold loopRange
  infer_instance

instance answers_usingVariables : Answers tidy (usingVariables rules) := by
  unfold usingVariables
  infer_instance

instance answers_loopHead : Answers tidy (loopHead rules) := by
  unfold loopHead
  infer_instance

instance answers_forStatement : Answers tidy (forStatement rules) := by
  unfold forStatement
  infer_instance

instance answers_returnStatement : Answers tidy (returnStatement rules) := by
  unfold returnStatement
  infer_instance

instance answers_throwStatement : Answers tidy (throwStatement rules) := by
  unfold throwStatement
  infer_instance

instance answers_switchCase : Answers tidy (switchCase rules) := by
  unfold switchCase
  infer_instance

instance answers_switchStatement : Answers tidy (switchStatement rules) := by
  unfold switchStatement
  infer_instance

instance answers_catchClause : Answers tidy (catchClause rules) := by
  unfold catchClause
  infer_instance

instance answers_finallyClause : Answers tidy (finallyClause rules) := by
  unfold finallyClause
  infer_instance

instance answers_tryStatement : Answers tidy (tryStatement rules) := by
  unfold tryStatement
  infer_instance

instance answers_withStatement : Answers tidy (withStatement rules) := by
  unfold withStatement
  infer_instance

instance answers_labelledStatement : Answers tidy (labelledStatement rules) := by
  unfold labelledStatement
  infer_instance

instance answers_expressionStatement : Answers tidy (expressionStatement rules) := by
  unfold expressionStatement
  infer_instance

instance answers_contextualDeclaration : Answers tidy (contextualDeclaration rules) := by
  unfold contextualDeclaration
  infer_instance

instance answers_contextualStatement : Answers tidy (contextualStatement rules) := by
  unfold contextualStatement
  infer_instance

instance answers_statement (declarations : Bool) : Answers tidy (statement rules declarations) := by
  unfold statement
  refine @answers_withReader Node _ _ _ (.next fun _ => .next fun _ => ?_)
  split <;> infer_instance

/-! ### Module -/

instance answers_attributesCode : Answers tidy (attributesCode rules) := by
  unfold attributesCode
  infer_instance

instance answers_sourceClause : Answers tidy (sourceClause rules) := by
  unfold sourceClause
  infer_instance

instance answers_importEquals : Answers tidy (importEquals) := by
  unfold importEquals
  infer_instance

instance answers_importDeclaration : Answers tidy (importDeclaration rules) := by
  unfold importDeclaration
  dsimp only
  infer_instance

/-! ### Items -/

instance item_pureExported (n : Node) [held : IsTidy n] :
    Answers Node.IsItem (pure (.exported n) : Parse Node) := .pure (.exported held.out)

instance item_pureDefault (d : TypeDecl) (code : List LocalCode) [held : IsTidy code] :
    Answers Node.IsItem (pure (.exportedDefault d code) : Parse Node) :=
  .pure (.exportedDefault held.out)

instance item_pureList (specifiers : List ExportSpecifier) :
    Answers Node.IsItem (pure (.exportList specifiers) : Parse Node) := .pure .exportList

instance item_pureReexport (specifiers : List ExportSpecifier) (source : Option String) :
    Answers Node.IsItem (pure (.reexport specifiers source) : Parse Node) := .pure .reexport

instance (priority := low) item_tidy (rule : Parse Node) [statement : Answers tidy rule] :
    Answers Node.IsItem rule := ⟨fun run => .statement (statement.holds run)⟩

instance item_exportedList : Answers Node.IsItem (exportedList rules) := by
  unfold exportedList
  infer_instance

instance item_exportedDefault : Answers Node.IsItem (exportedDefault rules) := by
  unfold exportedDefault
  infer_instance

instance item_exportedAll : Answers Node.IsItem (exportedAll rules) := by
  unfold exportedAll
  infer_instance

instance item_exportDeclaration : Answers Node.IsItem (exportDeclaration rules) := by
  unfold exportDeclaration
  dsimp only
  infer_instance

instance item_moduleItem : Answers Node.IsItem (moduleItem rules) := by
  unfold moduleItem
  infer_instance

/-! ### Files -/

instance orderly_next : (Rules.next rules).Orderly where
  type := answers_type
  boundType := answers_boundType
  typeOperand := answers_typeOperand
  pattern := answers_pattern
  assignment := answers_assignment
  binary := answers_binary
  unary := answers_unary
  applied := answers_applied
  element := answers_element
  heritage := answers_heritage
  statement := answers_statement
  moduleItem := item_moduleItem

instance orderly_none : Rules.none.Orderly where
  type := answers_failure
  boundType := answers_failure
  typeOperand := answers_failure
  pattern := answers_failure
  assignment := answers_failure
  binary := answers_failure
  unary := answers_failure
  applied := fun _ => answers_failure
  element := answers_failure
  heritage := answers_failure
  statement := fun _ => answers_failure
  moduleItem := answers_failure

instance orderly_upTo (n : Nat) : (Rules.upTo n).Orderly := by
  induction n with
  | zero => exact orderly_none
  | succ n ih => exact orderly_next

theorem items_file : Answers (fun items => ∀ n ∈ items, Node.IsItem n) (file rules) := by
  refine .repeated (.next fun _ => ?_)
  split
  · exact .pure fun _ found => nomatch found
  · exact Rules.Orderly.moduleItem.andThen fun n held =>
      .pure fun _ same => Option.some.inj same ▸ held

end Grammar

open Grammar

/-- A text that follows the grammar has exports among the items of its modules only. -/
theorem isItem_outline {path : String} {text : List Char} {items : List Node}
    (parsed : outline? path text = some items) : ∀ n ∈ items, Node.IsItem n := by
  obtain ⟨⟨found, last⟩, run, rfl⟩ := Option.map_eq_some_iff.mp parsed
  have items : Answers _ (file (.upTo (3 * text.length + 8))) := items_file
  exact items.holds run

end TypeClosure

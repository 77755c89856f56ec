import TypeClosure.Grammar.Element
import TypeClosure.Proofs.Grammar.Function

/-! What the rules of JSX find. -/

namespace TypeClosure.Grammar

open Syntax

variable {text : List Char} {rules : Rules} [rules.Sound text]

omit [rules.Sound text] in
instance finds_tagWord : Finds text [] tagWord := by
  refine .from_token fun p within => .peek fun _ => .resume within ?_ ?_
  · exact within.first.trans (Cursor.before_dropWhile _ _)
  · exact .pure fun offset => by simp

omit [rules.Sound text] in
instance advances_tagName : Advances text tagName := by
  unfold tagName
  infer_instance

instance finds_spreadAttribute : Finds text [] (spreadAttribute rules) :=
  .next fun _ => .next fun _ => .bind fun e => .next fun _ => .pure fun offset => by simp

instance finds_container : Finds text [] (container rules) := by
  refine .next fun _ => .next fun _ => .ite inferInstance (.next fun _ => ?_)
  exact .bind fun e => .next fun _ => .pure fun offset => by simp

instance finds_attributeValue : Finds text [] (attributeValue rules) := by
  refine .from_here fun p within => .ite (fun _ => ?_) fun _ => .of_finds within inferInstance
  split
  · next last ends =>
      exact .resume within (within.first.trans (before_jsxStringEnd? ends)) inferInstance
  · exact .failure

instance finds_attributes : Finds text [] (attributes rules) := by
  refine .andThen (.repeated ?_) fun list => .pure fun offset => by simp
  refine .next fun _ => .ite inferInstance
    (.next fun _ => .ite (.next fun _ => .next fun _ => ?_) inferInstance)
  refine .ite_skip (.next fun _ => .ite inferInstance (.pure fun offset => by simp))

instance finds_children : Finds text [] (children rules) := by
  refine .andThen (.repeated ?_) fun list => .next fun _ => .pure fun offset => by simp
  refine .from_get fun p within => .resume within (Cursor.before_dropWhile _ _) ?_
  infer_instance

instance finds_element : Finds text [] (element rules) := by
  refine .next fun _ => .next fun _ => .ite ?_ ?_
  · exact .bind fun inside => .next fun _ => .next fun _ => .pure fun offset => by simp
  · refine .next fun _ => .next fun _ => .ite_bind fun arguments => .bind fun given =>
      .next fun _ => .ite ?_ ?_
    · exact .next fun _ => .pure fun offset => by simp; omega
    · exact .next fun _ => .bind fun inside => .next fun _ => .next fun _ => .next fun _ =>
        .next fun _ => .pure fun offset => by simp; omega

end TypeClosure.Grammar

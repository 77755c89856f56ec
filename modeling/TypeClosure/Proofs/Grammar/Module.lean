import TypeClosure.Grammar.Module
import TypeClosure.Proofs.Grammar.Statement

/-!
What the rules of modules find, and so what the outline of a text holds: its declarations start at
words of their own.
-/

namespace TypeClosure

open Syntax

namespace Grammar

variable {text : List Char} {rules : Rules}

/-! ### Sources and names -/

instance advances_moduleSource : Advances text moduleSource := by
  refine .bind fun t => ?_
  split
  · infer_instance
  · infer_instance

instance advances_exportName : Advances text exportName := by
  refine .bind fun t => ?_
  split
  · infer_instance
  · infer_instance

instance advances_newName? : Advances text newName? := by
  unfold newName?
  infer_instance

/-! ### Imports -/

instance advances_importSpecifier : Advances text importSpecifier := by
  refine .bind fun
    | .string _ => inferInstance
    | .identifier first => ?_
  exact .bind fun _ => .ite (.bind fun word => .ite inferInstance inferInstance) inferInstance

instance advances_importedDefault : Advances text importedDefault := by
  have rest : Advances text (do
      if ← isAt .equals then return true
      if !(← isAtWord "from") then expect .comma
      return false : Parse Bool) :=
    .bind fun _ => .ite inferInstance
      (.bind fun _ => .ite (.bind fun _ => inferInstance) inferInstance)
  refine .bind fun first => .bind fun next => .bind fun _ => .bind fun _ => .ite inferInstance
    (.bind fun _ => .ite (.bind fun _ => ?_) (.ite (.bind fun _ => .ite ?_ ?_) rest))
  · exact .ite (.bind fun _ => rest) rest
  · exact .bind fun _ => inferInstance
  · exact .bind fun _ => .bind fun _ => .bind fun _ => .bind fun _ =>
      .ite (.bind fun _ => rest) rest

instance finds_importEquals : Finds text [] importEquals := by
  refine .next fun _ => .next fun _ => .next fun _ => ?_
  refine .meet (fun rest => .ite (.next fun _ => .next fun _ => .next fun _ => .next fun _ => rest)
    (.next fun _ => rest)) ?_
  exact .next fun _ => .pure fun _ => Nat.zero_le _

/-! ### Exports -/

instance advances_exportSpecifier : Advances text exportSpecifier := by
  refine .bind fun
    | .string _ => inferInstance
    | .identifier first => ?_
  exact .bind fun _ => .ite (.bind fun second => .ite
    (.bind fun _ => .ite inferInstance inferInstance) inferInstance) inferInstance

section

variable [rules.Sound text]

instance finds_attributesCode : Finds text [] (attributesCode rules) := by
  refine .next fun _ => .next fun _ => .next fun _ => .ite ?_ inferInstance
  exact .next fun _ => .bind fun e => .pure fun _ => by simp

instance finds_sourceClause : Finds text [] (sourceClause rules) :=
  .next fun _ => .next fun _ => .bind fun code => .next fun _ => .pure fun _ => by simp

instance finds_importDeclaration : Finds text [] (importDeclaration rules) := by
  refine .next fun _ => .next fun _ => .ite ?_ (.next fun _ => ?_)
  · exact .next fun _ => .bind fun code => .next fun _ => .pure fun _ => by simp
  · refine .ite_rejoin (fun rest => .next fun _ => .ite inferInstance rest) (.next fun _ => ?_)
    refine .meet (fun rest => .ite (.next fun _ => .next fun _ => rest) (.next fun _ => .ite_rejoin
      (fun rest => .next fun _ => .next fun _ => rest) rest)) (.bind fun
        | (_, code) => .pure fun _ => by simp)

instance finds_exportedList : Finds text [] (exportedList rules) := by
  refine .next fun _ => .next fun list => .next fun _ => .next fun _ => .ite ?_ ?_
  · exact .bind fun
      | (source, _) => .pure fun _ => Nat.zero_le _
  · exact .next fun _ => .pure fun _ => Nat.zero_le _

instance finds_exportedDefault : Finds text [] (exportedDefault rules) := by
  refine .next fun t => .next fun next => .ite ?_ (.ite_rejoin (fun rest => .next fun _ => rest) ?_)
  · exact .next fun _ => .bind fun code => .pure fun _ => by simp
  refine .from_isAtWord fun p within => .ite (fun isInterface => .here ?_) fun _ =>
    .of_finds within ?_
  · have starts := within.startsDeclaration_of_spells (by decide : "interface" ∈ declarationWords)
      (spells_of_isWord isInterface)
    refine .advance within starts (.through (finds_interfaceRest _) fun
      | (decl, code) => .pure fun _ => by simp)
  refine .next fun _ => .ite ?_ (.ite ?_ (.next fun _ => .ite ?_ ?_))
  · exact .bind fun code => .pure fun _ => by simp
  · exact .next fun _ => .bind fun code => .pure fun _ => by simp
  · exact .bind fun code => .pure fun _ => by simp
  · exact .bind fun e => .next fun _ => .pure fun _ => by simp

instance finds_exportedAll : Finds text [] (exportedAll rules) := by
  refine .next fun _ => .next fun _ => .ite ?_ ?_
  · exact .next fun _ => .bind fun
      | (source, _) => .pure fun _ => Nat.zero_le _
  · exact .bind fun
      | (_, code) => .pure fun _ => by simp

instance finds_exportDeclaration : Finds text [] (exportDeclaration rules) := by
  -- Behind `declare` and behind other words, what does not become a declaration is left to the
  -- branches below.
  refine .next fun _ => .meet (fun rest => .from_here fun p within => .eatWord within (by decide)
    (.tries (finds_ambientDeclaration _) (fun node => .pure fun _ => by simp) (.weaken rest))
    (.of_finds within rest)) ?_
  refine .next fun _ => .ite_rejoin (fun rest => .from_here fun p within =>
    .through (.attempt within (findsFrom_wordDeclaration_here within)) fun
      | some (some node) => .pure fun _ => by simp
      | some none => .weaken rest
      | none => .weaken rest) ?_
  refine .next fun _ => .ite (.next fun next => .next fun _ => .ite_rejoin
    (fun rest => .next fun _ => rest) (.next fun _ => inferInstance)) ?_
  refine .next fun _ => .ite (.bind fun e => .next fun _ => .pure fun _ => by simp) ?_
  refine .next fun _ => .ite
    (.next fun _ => .next fun _ => .next fun _ => .pure fun _ => Nat.zero_le _) ?_
  refine .next fun _ => .ite (.next fun _ => .ite inferInstance inferInstance) ?_
  refine .next fun _ => .ite inferInstance (.from_token fun p within => .peek fun next => ?_)
  have exported {rule : Parse Node} (inside : Finds text [] rule) :
      Finds text [] (rule >>= fun node => pure (Node.exported node)) :=
    .andThen inside fun node => .pure fun _ => by simp
  refine .ite (fun _ => .of_finds within (exported inferInstance)) fun _ =>
    .ite (fun _ => .of_finds within ?_) fun _ =>
    .ite (fun _ => .of_finds within (exported inferInstance)) fun _ =>
    .ite (fun isEnum => ?_) fun _ =>
    .ite (fun _ => .of_finds within (exported inferInstance)) fun _ =>
    .of_finds within inferInstance
  · exact .next fun _ => .bind fun code => .pure fun _ => by simp
  · rw [Bool.and_eq_true] at isEnum
    have starts := within.startsDeclaration_of_spells (by decide : "const" ∈ declarationWords)
      (spells_of_isWord isEnum.1)
    exact .advance within starts (.next fun _ => .through (finds_typeNode (finds_enumRest _))
      fun node => .pure fun _ => by simp)

instance finds_moduleItem : Finds text [] (moduleItem rules) := by
  unfold moduleItem
  infer_instance

/-! ### Files -/

instance sound_next : (Rules.next rules).Sound text where
  type := finds_type
  boundType := finds_boundType
  typeOperand := finds_typeOperand
  pattern := finds_pattern
  assignment := finds_assignment
  binary := finds_binary
  unary := finds_unary
  applied := finds_applied
  element := finds_element
  heritage := finds_heritage
  statement := finds_statement
  moduleItem := finds_moduleItem

end

instance sound_none : Rules.none.Sound text where
  type := finds_failure
  boundType := finds_failure
  typeOperand := finds_failure
  pattern := finds_failure
  assignment := finds_failure
  binary := finds_failure
  unary := finds_failure
  applied := fun _ => finds_failure
  element := finds_failure
  heritage := finds_failure
  statement := fun _ => finds_failure
  moduleItem := finds_failure

instance sound_upTo (n : Nat) : (Rules.upTo n).Sound text := by
  induction n with
  | zero => exact sound_none
  | succ n ih => exact sound_next

instance finds_file [rules.Sound text] : Finds text [] (file rules) :=
  .repeated (.next fun _ => .ite inferInstance inferInstance)

/-- Every file starts between its tokens, behind the first line where that is no part of it. -/
theorem within_start (text : List Char) :
    Position.Within text ⟨Token.firstOf text, Cursor.ofText text⟩ := by
  have from_start {start : Cursor} (behind : (Cursor.ofText text).Before start) :
      Position.Within text ⟨Token.scan start, Cursor.ofText text⟩ :=
    { taken := .refl _
      first := behind.trans (before_first_scan start)
      scanned := scanLexeme_first_scan start }
  unfold Token.firstOf
  split
  · exact from_start (Cursor.before_dropWhile _ _)
  · exact from_start (.refl _)

end Grammar

open Grammar

variable {path : String} {text : List Char} {items : List Node}

theorem count_offsets_outline (parsed : outline? path text = some items) (offset : Nat) :
    (Node.offsetsOfAll items).count offset ≤ if startsDeclaration text offset then 1 else 0 := by
  obtain ⟨⟨found, last⟩, run, rfl⟩ := Option.map_eq_some_iff.mp parsed
  have finding : FindsFrom text [] (file (.upTo (3 * text.length + 8))) _ :=
    finds_file.finds (within_start text)
  have counted := Nat.le_of_add_right_le ((finding.found run).found offset)
  rw [Node.offsetsOfAll_eq_flatMap]
  refine Nat.le_trans counted (Nat.le_of_eq ?_)
  simp [Position.ahead]

/-- No two declarations of a text start at one place. -/
theorem nodup_offsets_outline (parsed : outline? path text = some items) :
    (Node.offsetsOfAll items).Nodup := by
  rw [List.nodup_iff_count]
  intro offset
  refine Nat.le_trans (count_offsets_outline parsed offset) ?_
  split
  · exact Nat.le_refl 1
  · exact Nat.zero_le 1

/-- Each declaration of a text starts at a word that introduces one. -/
theorem startsDeclaration_outline (parsed : outline? path text = some items) {offset : Nat}
    (member : offset ∈ Node.offsetsOfAll items) : startsDeclaration text offset = true := by
  have counted := count_offsets_outline parsed offset
  have one := List.count_pos_iff.mpr member
  split at counted
  · assumption
  · omega

end TypeClosure

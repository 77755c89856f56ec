import TypeClosure.Grammar.Declaration
import TypeClosure.Proofs.Grammar.Expression

/-! What the rules of declarations find. -/

namespace TypeClosure.Grammar

open Syntax

variable {text : List Char} {rules : Rules} [rules.Sound text]

/-! ### Types -/

theorem finds_heritageUpTo (n : Nat) (first : Cursor) (code : List LocalCode) :
    Finds text (declared code) (heritageUpTo rules n first code) := by
  induction n generalizing code with
  | zero => exact inferInstanceAs (Finds text _ failure)
  | succ n ih =>
      refine .next fun _ => .next fun _ => .ite (.bind fun arguments => ?_) ?_
      · refine .next fun _ => .next fun _ => .next fun _ => .ite ?_ (.pure fun offset => by simp)
        simpa using ih (code ++ arguments)
      · exact .tries (finds_suffix? false false ⟨.other, code⟩) (fun e => ih e.code)
          (.pure fun offset => by simp)

instance finds_heritage : Finds text [] (heritage rules) :=
  .next fun first => .next fun _ => .next fun _ => finds_heritageUpTo _ first []

/-! The rest of a declaration whose text starts at a place: that declaration is found. -/

theorem finds_interfaceRest (first : Cursor) :
    Finds text [first.offset] (interfaceRest rules first) := by
  refine .next fun name => .bind fun generics => .next fun _ => .ite_bind fun heritage =>
    .next fun _ => .ite_skip (.bind fun members => ?_)
  obtain ⟨list, code⟩ := members
  exact .next fun _ => .pure fun offset => by simp

theorem finds_typeAliasRest (first : Cursor) :
    Finds text [first.offset] (typeAliasRest rules first) :=
  .next fun name => .bind fun generics => .next fun _ => .bind fun t => .next fun _ =>
    .next fun _ => .pure fun offset => by simp

instance finds_enumMemberName : Finds text [] (enumMemberName rules) := by
  refine .next fun _ => .ite ?_ ?_
  · exact .bind fun e => .next fun _ => .pure fun offset => by simp
  · exact .next fun _ => .next fun _ => .next fun _ => .pure fun _ => Nat.zero_le _

instance finds_enumMembersUpTo (n : Nat) : Finds text [] (enumMembersUpTo rules n) := by
  induction n with
  | zero => exact inferInstanceAs (Finds text _ failure)
  | succ n ih =>
      refine .next fun _ => .ite inferInstance (.bind fun key => .bind fun
        | some value => .next fun _ => .bind fun rest => .pure fun offset => by simp
        | none => .next fun _ => .ite (.pure fun offset => by simp) ?_)
      refine .next fun _ => .ite_rejoin (fun rest => .next fun _ => .next fun _ => rest) ?_
      exact .bind fun rest => .pure fun offset => by simp

theorem finds_enumRest (first : Cursor) : Finds text [first.offset] (enumRest rules first) :=
  .next fun name => .next fun _ => .next fun _ => .bind fun code => .next fun _ => .next fun _ =>
    .pure fun offset => by simp

omit [rules.Sound text] in
theorem finds_typeNode {owned : List Nat} {rest : Parse (TypeDecl × List LocalCode)}
    (inside : Finds text owned rest) : Finds text owned (typeNode rest) :=
  .through inside fun
    | (decl, code) => .pure fun offset => by simp

/-! ### Namespaces -/

instance finds_namespaceBody : Finds text [] (namespaceBody rules) :=
  .bind fun items => .pure fun offset => by simp

instance finds_namespaceRest : Finds text [] (namespaceRest rules) := by
  unfold namespaceRest
  infer_instance

instance finds_ambientModuleRest : Finds text [] (ambientModuleRest rules) := by
  refine .next fun t => .next fun _ => .next fun _ => .next fun _ => .ite inferInstance ?_
  exact .next fun _ => .pure fun _ => Nat.zero_le _

/-! ### Variables -/

instance finds_oneVariable (kind : VariableKind) : Finds text [] (oneVariable rules kind) := by
  refine .next fun _ => .next fun _ => .bind fun p => .ite_skip (.bind fun ascription => ?_)
  refine .next fun _ => .next fun _ => .ite (.pure fun offset => by simp)
    (.next fun _ => .ite ?_ ?_)
  · exact .bind fun value => .pure fun offset => by simp
  · exact .next fun _ => .next fun _ => .pure fun offset => by simp

instance finds_variablesUpTo (n : Nat) (kind : VariableKind) :
    Finds text [] (variablesUpTo rules n kind) := by
  induction n with
  | zero => exact inferInstanceAs (Finds text _ failure)
  | succ n ih =>
      refine .next fun _ => .next fun _ => .ite inferInstance (.bind fun code => .next fun _ =>
        .ite (.bind fun rest => .pure fun offset => by simp) (.pure fun offset => by simp))

instance stays_startsRange : Stays (startsRange rules) := by
  unfold startsRange
  infer_instance

instance finds_variableList (inLoopHead : Bool) :
    Finds text [] (variableList rules inLoopHead) := by
  refine .next fun _ => .next fun _ => .next fun _ => .next fun _ => .ite inferInstance ?_
  exact .next fun _ => inferInstance

instance finds_variableStatement : Finds text [] (variableStatement rules) := by
  refine .bind fun code => .next fun _ =>
    .ite_rejoin (fun rest => .next fun _ => .next fun _ => rest) ?_
  exact .pure fun offset => by simp

/-! ### Declarations behind a word -/

instance finds_functionDeclaration : Finds text [] (functionDeclaration rules) :=
  .bind fun code => .pure fun offset => by simp

instance finds_classDeclaration : Finds text [] (classDeclaration rules) :=
  .bind fun code => .pure fun offset => by simp

/-- The declaration behind a word is found if it is found past that word. -/
theorem findsFrom_wordDeclaration {owned : List Nat} {p : Position} {first : Cursor}
    (within : p.Within text)
    (past : ∀ word ∈ declarationWords, p.token.spells word = true →
      ∀ {rest : Parse (Option Node)}, Finds text [first.offset] rest →
        FindsFrom text owned (advance >>= fun _ => rest) p) :
    FindsFrom text owned (wordDeclaration rules first) p := by
  have plain {rest : Parse Node} (inside : Finds text [] rest) :
      FindsFrom text owned (advance >>= fun _ => rest >>= fun node => pure (some node)) p :=
    .of_finds within (.next fun _ => .weaken (.andThen inside fun node => .pure fun _ => by simp))
  have type {rest : Parse (TypeDecl × List LocalCode)}
      (inside : Finds text [first.offset] rest) :
      Finds text [first.offset] (typeNode rest >>= fun node => pure (some node)) :=
    .through (finds_typeNode inside) fun node => .pure fun _ => by simp
  refine .token (.ite (fun _ => plain inferInstance) fun _ => .ite (fun spells => ?_) fun _ =>
    .ite (fun spells => ?_) fun _ => .ite (fun _ => ?_) fun _ =>
    .ite (fun _ => plain inferInstance) fun _ => .ite (fun spells => ?_) fun _ => ?_)
  · exact past "enum" (by decide) spells (type (finds_enumRest first))
  · exact past "interface" (by decide) spells (type (finds_interfaceRest first))
  · refine .of_finds within (.weaken (.next fun _ => .next fun _ => .ite ?_ ?_))
    · exact .bind fun node => .pure fun _ => by simp
    · exact .bind fun node => .pure fun _ => by simp
  · exact past "type" (by decide) spells (type (finds_typeAliasRest first))
  · exact .of_finds within inferInstance

theorem finds_ambientDeclaration (first : Cursor) :
    Finds text [first.offset] (ambientDeclaration rules first) := by
  refine .withReader _ (.from_token fun p within => ?_)
  have plain {rest : Parse Node} (inside : Finds text [] rest) :
      FindsFrom text [first.offset] (rest >>= fun node => pure (some node)) p :=
    .of_finds within (.weaken (.andThen inside fun node => .pure fun _ => by simp))
  refine .ite (fun _ => plain inferInstance) fun _ => .ite (fun _ => plain inferInstance) fun _ =>
    .peek fun next => .ite (fun _ => ?_) fun _ => .ite (fun _ => plain inferInstance) fun _ =>
    .ite (fun _ => plain inferInstance) fun _ => ?_
  · exact .of_finds within (.next fun _ => .next fun _ =>
      .through (finds_typeNode (finds_enumRest first)) fun node => .pure fun _ => by simp)
  · exact findsFrom_wordDeclaration within fun _ _ _ _ rest =>
      .of_finds within (.next fun _ => rest)

/-- A word declaration whose text starts at its word. -/
theorem findsFrom_wordDeclaration_here {p : Position} (within : p.Within text) :
    FindsFrom text [] (wordDeclaration rules p.token.first) p :=
  findsFrom_wordDeclaration within fun _ among spells _ rest =>
    .advance within (within.startsDeclaration_of_spells among spells) rest

end TypeClosure.Grammar

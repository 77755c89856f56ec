import TypeClosure.Proofs.Grammar.Sequence

/-!
The rules of the grammar, from those for declarations to those for files, answer declarations in
the order of the text, and so does the outline of a file.
-/

namespace TypeClosure

namespace Grammar

open Syntax

-- What stands behind a branch without an `else` is answered for once for each of the ways there.
set_option synthInstance.maxSize 1000000

variable {text : List Char} {spots : List Spot} {rules : Rules} {p : Position} {first : Cursor}

/-! ### Types -/

/-- An answered declaration starts at a place. -/
def StartsAt (first : Cursor) (answer : TypeDecl × List LocalCode) : Prop :=
  answer.1.offset = first.offset

instance starts_pure (name text : String) (body : TypeBody) (code : List LocalCode) :
    Answers (StartsAt first) (pure (⟨name, first.offset, text, body⟩, code)) := .pure rfl

instance starts_interfaceRest : Answers (StartsAt first) (interfaceRest rules first) := by
  unfold interfaceRest
  infer_instance

instance starts_typeAliasRest : Answers (StartsAt first) (typeAliasRest rules first) := by
  unfold typeAliasRest
  infer_instance

instance starts_enumRest : Answers (StartsAt first) (enumRest rules first) := by
  unfold enumRest
  infer_instance

/-- A declaration of a type that starts at a place that has been passed is in order: its local code
stands behind that place. -/
theorem arranges_declaration {rest : Parse (TypeDecl × List LocalCode)}
    [starts : Answers (StartsAt first) rest] (finds : Finds text [first.offset] rest)
    {node : TypeDecl → List LocalCode → Node}
    (placed_node : ∀ d code, placed (node d code) =
      ⟨d.offset, true⟩ :: Spot.inside (declared code)) :
    Arranges text [⟨first.offset, true⟩]
      (rest >>= fun answer => pure (node answer.1 answer.2)) where
  arranges := by
    intro p passed
    constructor
    intro s n q run
    obtain ⟨⟨d, code⟩, r, answered, second⟩ := bind_eq_some.mp run
    cases second
    have same : d.offset = first.offset := starts.holds answered
    rw [Ordered, placed_node]
    refine List.pairwise_cons.mpr ⟨fun spot member _ => ?_, inOrder_inside _⟩
    obtain ⟨offset, held, rfl⟩ := List.mem_map.mp member
    have counted := ((finds.finds passed.within).found answered).found offset
    rw [declared_pair, declared_decl, same, List.count_append, Nat.add_assoc] at counted
    have between := Position.between_of_found (List.count_pos_iff.mpr held)
      (Nat.le_of_add_le_add_left counted)
    exact same ▸ Nat.lt_of_lt_of_le (passed.behind _ List.mem_cons_self) between.1

section

variable [rules.Sound text]

theorem arranges_interface :
    Arranges text [⟨first.offset, true⟩] (typeNode (interfaceRest rules first)) :=
  arranges_declaration (finds_interfaceRest first) placed_type

theorem arranges_typeAlias :
    Arranges text [⟨first.offset, true⟩] (typeNode (typeAliasRest rules first)) :=
  arranges_declaration (finds_typeAliasRest first) placed_type

theorem arranges_enum :
    Arranges text [⟨first.offset, true⟩] (typeNode (enumRest rules first)) :=
  arranges_declaration (finds_enumRest first) placed_type

end

/-! ### What holds local code only -/

instance (priority := low) arranges_of_answers (rule : Parse Node) [held : Answers Ordered rule] :
    Arranges text spots rule := .of_answers held

section

variable (c : LocalCode) (code : List LocalCode)

instance ordered_value : Answers Ordered (pure (Node.value (code.map Node.code))) :=
  .pure (by simp [Ordered])

instance ordered_valueOne : Answers Ordered (pure (Node.value [.code c])) :=
  .pure (by simp [Ordered])

instance ordered_statement : Answers Ordered (pure (Node.statement (code.map Node.code))) :=
  .pure (by simp [Ordered])

instance ordered_statementOne : Answers Ordered (pure (Node.statement [.code c])) :=
  .pure (by simp [Ordered])

instance ordered_statementNone : Answers Ordered (pure (Node.statement [])) :=
  .pure (by simp [Ordered])

instance ordered_ofCode : Answers Ordered (pure (ofCode code)) := .pure (by simp [Ordered])

instance ordered_exportList (specifiers : List ExportSpecifier) :
    Answers Ordered (pure (Node.exportList specifiers)) := .pure (by simp [Ordered])

instance ordered_reexport (specifiers : List ExportSpecifier) (source : Option String) :
    Answers Ordered (pure (Node.reexport specifiers source)) := .pure (by simp [Ordered])

end

instance ordered_functionDeclaration : Answers Ordered (functionDeclaration rules) := by
  unfold functionDeclaration
  infer_instance

instance ordered_classDeclaration : Answers Ordered (classDeclaration rules) := by
  unfold classDeclaration
  infer_instance

instance ordered_variableStatement : Answers Ordered (variableStatement rules) := by
  unfold variableStatement
  infer_instance

instance ordered_jumpStatement : Answers Ordered jumpStatement := by
  unfold jumpStatement
  infer_instance

instance ordered_returnStatement : Answers Ordered (returnStatement rules) := by
  unfold returnStatement
  infer_instance

instance ordered_throwStatement : Answers Ordered (throwStatement rules) := by
  unfold throwStatement
  infer_instance

instance ordered_importEquals : Answers Ordered importEquals := by
  unfold importEquals
  infer_instance

instance ordered_importDeclaration : Answers Ordered (importDeclaration rules) := by
  unfold importDeclaration
  infer_instance

instance ordered_exportedAll : Answers Ordered (exportedAll rules) := by
  unfold exportedAll
  infer_instance

instance ordered_exportedList : Answers Ordered (exportedList rules) := by
  unfold exportedList
  infer_instance

/-! ### Namespaces and blocks -/

section

variable [rules.Sound text]

theorem arranges_braced {item : Parse Node} [Finds text [] item] [Arranges text [] item] :
    Arranges text [] (braced item) := by
  refine .next fun _ => .andThen inferInstance (.repeated inferInstance ?_) fun items =>
    .next fun _ => .pure (by simp)
  exact .next fun _ => .next fun _ => .ite (.pure (by simp)) (.bind fun n => .pure (by simp))

variable [rules.Sequential text]

instance arranges_namespaceBody : Arranges text [] (namespaceBody rules) :=
  .map arranges_braced placed_module

instance arranges_namespaceRest : Arranges text [] (namespaceRest rules) :=
  .next fun _ => .next fun _ => arranges_namespaceBody

instance arranges_ambientModuleRest : Arranges text [] (ambientModuleRest rules) := by
  refine .next fun t => .next fun _ => .next fun _ => .next fun _ => .ite inferInstance ?_
  exact .next fun _ => .pure (by simp)

instance arranges_block : Arranges text [] (block rules) := arranges_braced

/-! ### Statements with parts -/

instance arranges_substatement : Arranges text [] (substatement rules) := by
  unfold substatement
  infer_instance

omit [rules.Sequential text] in
instance arranges_condition : Arranges text [] (condition rules) :=
  .next fun _ => .next fun e => .next fun _ => .pure (by simp)

instance arranges_ifStatement : Arranges text [] (ifStatement rules) := by
  refine .next fun _ => .bind fun test => .bind fun yes => .next fun _ => .ite ?_ ?_
  · exact .bind fun no => .pure (by simp)
  · exact .pure (by simp)

/-- The condition is visited in front of the body, but there is local code only in it. -/
instance arranges_doStatement : Arranges text [] (doStatement rules) := by
  have local_condition : Answers (fun test => ∃ code : List LocalCode, test = code.map Node.code)
      (condition rules) := .next fun _ => .next fun e => .next fun _ => .pure ⟨e.code, rfl⟩
  refine .next fun _ => .bind fun body => .next fun _ =>
    .knowing local_condition fun test ⟨code, same⟩ => .next fun _ => .pure ?_
  simp [same]

instance arranges_whileStatement : Arranges text [] (whileStatement rules) :=
  .next fun _ => .bind fun test => .bind fun body => .pure (by simp)

instance arranges_withStatement : Arranges text [] (withStatement rules) :=
  .next fun _ => .bind fun subject => .bind fun body => .pure (by simp)

instance arranges_forStatement : Arranges text [] (forStatement rules) := by
  refine .next fun _ => .next fun _ => .next fun _ => .next fun
    | (isOf, code) => .next fun _ => .next fun _ => .bind fun body => .pure (by simp)

instance arranges_switchCase : Arranges text [] (switchCase rules) := by
  refine .next fun _ => .meet (fun rest => .ite (.next fun _ => .next rest)
    (.next fun _ => .next rest)) fun test => .next fun _ => ?_
  refine .andThen (.repeated inferInstance) (.repeated inferInstance ?_) fun body =>
    .pure (by simp)
  exact .next fun _ => .next fun _ => .next fun _ => .next fun _ =>
    .ite (.pure (by simp)) (.bind fun n => .pure (by simp))

instance arranges_switchStatement : Arranges text [] (switchStatement rules) := by
  refine .next fun _ => .bind fun subject => .next fun _ =>
    .andThen (.repeated inferInstance) (.repeated inferInstance ?_) fun cases => .next fun _ =>
      .pure (by simp)
  exact .next fun _ => .next fun _ => .ite (.bind fun part => .pure (by simp)) (.pure (by simp))

instance arranges_catchClause : Arranges text [] (catchClause rules) := by
  refine .next fun _ => .ite (.next fun _ => .meet (fun rest => .ite (.next fun _ =>
    .next fun _ => .next fun _ => .next rest) (.next rest)) fun parameter => ?_) (.pure (by simp))
  exact .bind fun body => .pure (by simp)

instance arranges_finallyClause : Arranges text [] (finallyClause rules) :=
  .next fun _ => .ite (.bind fun body => .pure (by simp)) (.pure (by simp))

instance arranges_tryStatement : Arranges text [] (tryStatement rules) :=
  .next fun _ => .bind fun body => .bind fun handler => .bind fun last => .pure (by simp)

instance arranges_labelledStatement : Arranges text [] (labelledStatement rules) :=
  .next fun _ => .ite (.bind fun n => .pure (by simp)) (.bind fun n => .pure (by simp))

instance arranges_expressionStatement : Arranges text [] (expressionStatement rules) := by
  unfold expressionStatement
  infer_instance

/-! ### Declarations behind a word -/

/-- The declaration behind a word is in order if it is in order past that word. -/
theorem arrangesFrom_wordDeclaration (passed : p.Passed text spots)
    (past : ∀ word ∈ declarationWords, p.token.spells word = true →
      ∀ {rest : Parse (Option Node)}, Arranges text [⟨first.offset, true⟩] rest →
        ArrangesFrom (advance >>= fun _ => rest) p) :
    ArrangesFrom (wordDeclaration rules first) p := by
  have plain {rest : Parse Node} (inside : Arranges text [] rest) :
      ArrangesFrom (advance >>= fun _ => rest >>= fun n => pure (some n)) p :=
    .of_passed passed (.next fun _ => .map inside.weaken placed_some)
  refine .token (.ite (fun _ => plain inferInstance) fun _ => .ite (fun spells => ?_) fun _ =>
    .ite (fun spells => ?_) fun _ => .ite (fun _ => ?_) fun _ =>
    .ite (fun _ => plain inferInstance) fun _ => .ite (fun spells => ?_) fun _ => ?_)
  · exact past "enum" (by decide) spells (.map arranges_enum placed_some)
  · exact past "interface" (by decide) spells (.map arranges_interface placed_some)
  · refine .of_passed passed (.next fun _ => .next fun _ => .weaken (.ite ?_ ?_))
    · exact .map inferInstance placed_some
    · exact .map inferInstance placed_some
  · exact past "type" (by decide) spells (.map arranges_typeAlias placed_some)
  · exact .of_passed passed (.pure (by simp))

theorem arranges_ambientDeclaration :
    Arranges text [⟨first.offset, true⟩] (ambientDeclaration rules first) := by
  refine .withReader _ (.from_token fun p passed => ?_)
  have plain {rest : Parse Node} (inside : Arranges text [] rest) :
      ArrangesFrom (rest >>= fun n => pure (some n)) p :=
    .of_passed passed (.map inside.weaken placed_some)
  refine .ite (fun _ => plain inferInstance) fun _ => .ite (fun _ => plain inferInstance) fun _ =>
    .peek fun next => .ite (fun _ => ?_) fun _ => .ite (fun _ => plain inferInstance) fun _ =>
    .ite (fun _ => plain inferInstance) fun _ => ?_
  · exact .of_passed passed (.next fun _ => .next fun _ => .map arranges_enum placed_some)
  · exact arrangesFrom_wordDeclaration passed fun _ _ _ _ rest =>
      .of_passed passed (.next fun _ => rest)

/-- A word declaration whose text starts at its word. -/
theorem arrangesFrom_wordDeclaration_here (within : p.Within text) :
    ArrangesFrom (wordDeclaration rules p.token.first) p :=
  arrangesFrom_wordDeclaration (.nil within) fun _ among spells _ rest =>
    .advance (.nil within) (within.startsDeclaration_of_spells among spells) rest

instance arranges_contextualDeclaration : Arranges text [] (contextualDeclaration rules) := by
  refine .from_token fun p passed => .peek fun next => ?_
  have starts {word : String} (among : word ∈ declarationWords)
      (spells : p.token.spells word = true) :=
    passed.within.startsDeclaration_of_spells among spells
  have plain {spots : List Spot} {rest : Parse Node} (inside : Arranges text [] rest) :
      Arranges text spots (rest >>= fun n => pure (some n)) := .map inside.weaken placed_some
  have past {rest : Parse Node} (inside : Arranges text [] rest) :
      ArrangesFrom (advance >>= fun _ => rest >>= fun n => pure (some n)) p :=
    .of_passed passed (.next fun _ => plain inside)
  have none : ArrangesFrom (pure none : Parse (Option Node)) p :=
    .of_passed passed (.pure (by simp))
  have word : ArrangesFrom (wordDeclaration rules p.token.first) p :=
    arrangesFrom_wordDeclaration_here passed.within
  refine .ite (fun _ => .ite (fun _ => word) fun _ => none) fun _ =>
    .ite (fun _ => .ite (fun _ => word) fun _ => none) fun _ =>
    .ite (fun _ => .ite (fun _ => ?_) fun _ => none) fun _ =>
    .ite (fun _ => .ite (fun _ => past inferInstance) fun _ => none) fun _ =>
    .ite (fun spells => .ite (fun _ => past inferInstance) fun _ =>
      .ite (fun _ => ?_) fun _ => none) fun _ =>
    .ite (fun _ => .ite (fun _ => past inferInstance) fun _ => none) fun _ =>
    .ite (fun spells => ?_) fun _ => none
  · by_cases isType : p.token.spells "type" = true
    · exact .advance passed (starts (by decide) isType)
        (.ite (.map arranges_typeAlias placed_some)
          (.ite (plain inferInstance) (plain inferInstance)))
    · simp only [if_neg isType]
      exact .of_passed passed (.next fun _ => .ite (plain inferInstance) (plain inferInstance))
  · exact .advance passed (starts (by decide) spells)
      (.next fun _ => .map arranges_interface placed_some)
  · refine .peek fun _ => .advance passed (starts (by decide) spells)
      (.through (finds_ambientDeclaration _) arranges_ambientDeclaration fun
        | some n, ordered => .pure fun _ => ordered
        | .none, _ => ?_)
    exact .of_answers (.next fun _ => .pure .nil)

instance arranges_contextualStatement : Arranges text [] (contextualStatement rules) :=
  .bind fun
    | some n => .pure (by simp)
    | none => inferInstanceAs (Arranges text [] (expressionStatement rules))

instance arranges_statement (declarations : Bool) :
    Arranges text [] (statement rules declarations) := by
  refine .withReader _ (.from_token fun p passed => .peek fun next => ?_)
  split
  · exact .of_passed passed (.map arranges_block placed_statement)
  · exact .of_passed passed inferInstance
  · next word same =>
      refine .ite (fun isEnum => ?_) fun _ => .of_passed passed ?_
      · have starts : startsDeclaration text p.token.first.offset = true := by
          rw [Bool.and_eq_true, beq_iff_eq] at isEnum
          refine passed.within.startsDeclaration_of_spells
            (by decide : "const" ∈ declarationWords) ?_
          simp [Token.spells, same, isEnum.1]
        exact .advance passed starts (.next fun _ => arranges_enum)
      infer_instance
  · exact .of_passed passed inferInstance
  · exact .of_passed passed inferInstance

/-! ### Exports -/

instance arranges_exportedDefault : Arranges text [] (exportedDefault rules) := by
  refine .next fun t => .next fun next => .ite inferInstance
    (.meet (fun rest => .ite (.next fun _ => rest) rest) ?_)
  refine .from_isAtWord fun p passed => .ite (fun isInterface => .here ?_) fun _ =>
    .of_passed passed ?_
  · have starts := passed.within.startsDeclaration_of_spells
      (by decide : "interface" ∈ declarationWords) (spells_of_isWord isInterface)
    exact .advance passed starts
      (arranges_declaration (finds_interfaceRest _) placed_exportedDefault)
  · infer_instance

instance arranges_exportDeclaration : Arranges text [] (exportDeclaration rules) := by
  -- Behind `declare` and behind other words, what does not become a declaration is left to the
  -- branches below.
  refine .next fun _ => .meet (fun rest => .from_here fun p passed => .eatWord passed (by decide)
    (.through (finds_ambientDeclaration _) arranges_ambientDeclaration fun
      | some n, ordered => .pure fun _ => ordered
      | none, _ => .weaken rest)
    (.of_passed passed rest)) ?_
  refine .next fun _ => .meet (fun rest => .ite (.from_here fun p passed =>
    .through passed (.attempt passed.within (findsFrom_wordDeclaration_here passed.within))
      (.attempt (arrangesFrom_wordDeclaration_here passed.within)) fun
        | some (some n), ordered => .pure fun _ => ordered
        | some none, _ => rest
        | none, _ => rest) rest) ?_
  refine .next fun _ => .ite (.next fun next => .next fun _ => .meet
    (fun rest => .ite (.next fun _ => rest) rest) (.next fun _ => inferInstance)) ?_
  refine .next fun _ => .ite inferInstance (.next fun _ => .ite inferInstance ?_)
  refine .next fun _ => .ite (.next fun _ => .ite inferInstance inferInstance) ?_
  refine .next fun _ => .ite inferInstance (.from_token fun p passed => .peek fun next => ?_)
  have exported {rule : Parse Node} (inside : Arranges text [] rule) :
      Arranges text [] (rule >>= fun n => pure (Node.exported n)) := .map inside placed_exported
  refine .ite (fun _ => .of_passed passed (exported inferInstance)) fun _ =>
    .ite (fun _ => .of_passed passed ?_) fun _ =>
    .ite (fun _ => .of_passed passed (exported inferInstance)) fun _ =>
    .ite (fun isEnum => ?_) fun _ =>
    .ite (fun _ => .of_passed passed (exported inferInstance)) fun _ =>
    .of_passed passed inferInstance
  · exact .next fun _ => .next fun code => .pure (by simp)
  · rw [Bool.and_eq_true] at isEnum
    have starts := passed.within.startsDeclaration_of_spells
      (by decide : "const" ∈ declarationWords) (spells_of_isWord isEnum.1)
    exact .advance passed starts (.next fun _ => .map arranges_enum placed_exported)

instance arranges_moduleItem : Arranges text [] (moduleItem rules) := by
  unfold moduleItem
  infer_instance

/-! ### Files -/

instance sequential_next : (Rules.next rules).Sequential text where
  statement := arranges_statement
  moduleItem := arranges_moduleItem

end

instance sequential_none : Rules.none.Sequential text where
  statement := fun _ => .of_answers answers_failure
  moduleItem := .of_answers answers_failure

instance sequential_upTo (n : Nat) : (Rules.upTo n).Sequential text := by
  induction n with
  | zero => exact sequential_none
  | succ n ih => exact sequential_next

theorem arranges_file [rules.Sound text] [rules.Sequential text] : Arranges text [] (file rules) :=
  .repeated inferInstance (.next fun _ => .ite (.pure (by simp)) (.map inferInstance placed_some))

end Grammar

open Grammar

/-- The declarations of a text are visited in the order of the text, local code apart. -/
theorem inOrder_outline {path : String} {text : List Char} {items : List Node}
    (parsed : outline? path text = some items) : InOrder (Node.spotsOfAll items) := by
  obtain ⟨⟨found, last⟩, run, rfl⟩ := Option.map_eq_some_iff.mp parsed
  have arranged : Arranges text [] (file (.upTo (3 * text.length + 8))) := arranges_file
  rw [Node.spotsOfAll_eq_flatMap]
  exact (arranged.arranges (.nil (within_start text))).ordered run

end TypeClosure

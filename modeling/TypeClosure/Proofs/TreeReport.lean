import TypeClosure.Proofs.RootOrder

/-!
What is written of a closure tree agrees with the tree. The blocks of its nodes come one after the
other, each as far in as its node is deep. The last line counts what stands above it, unless some
root is missing: then it names the missing roots, and the command ends as a failure.
-/

namespace TypeClosure

namespace ClosureTree

mutual
/-- The nodes of a tree with their depths, each before those that were followed from it. -/
def levels (depth : Nat) : ClosureTree → List (Nat × ClosureTree)
  | .node own unresolved followed =>
      (depth, .node own unresolved followed) :: levelsOfAll (depth + 1) followed

def levelsOfAll (depth : Nat) : List ClosureTree → List (Nat × ClosureTree)
  | [] => []
  | tree :: rest => tree.levels depth ++ levelsOfAll depth rest
end

mutual
theorem map_snd_levels (depth : Nat) : (tree : ClosureTree) →
    (tree.levels depth).map Prod.snd = tree.nodes
  | .node own unresolved followed => by
      rw [levels, nodes, List.map_cons, map_snd_levelsOfAll]

theorem map_snd_levelsOfAll (depth : Nat) : (trees : List ClosureTree) →
    (levelsOfAll depth trees).map Prod.snd = nodesOfAll trees
  | [] => rfl
  | tree :: rest => by
      rw [levelsOfAll, nodesOfAll, List.map_append, map_snd_levels depth tree,
        map_snd_levelsOfAll depth rest]
end

mutual
/-- A tree with other modules that could not be found. -/
def withUnresolved (change : List String → List String) : ClosureTree → ClosureTree
  | .node own unresolved followed =>
      .node own (change unresolved) (withUnresolvedOfAll change followed)

def withUnresolvedOfAll (change : List String → List String) :
    List ClosureTree → List ClosureTree
  | [] => []
  | tree :: rest => tree.withUnresolved change :: withUnresolvedOfAll change rest
end

mutual
theorem closures_withUnresolved (change : List String → List String) : (tree : ClosureTree) →
    (tree.withUnresolved change).closures = tree.closures
  | .node own unresolved followed => by
      rw [withUnresolved, closures, closures, closuresOfAll_withUnresolved]

theorem closuresOfAll_withUnresolved (change : List String → List String) :
    (trees : List ClosureTree) →
    closuresOfAll (withUnresolvedOfAll change trees) = closuresOfAll trees
  | [] => rfl
  | tree :: rest => by
      rw [withUnresolvedOfAll, closuresOfAll, closuresOfAll, closures_withUnresolved change tree,
        closuresOfAll_withUnresolved change rest]
end

variable {t : ClosureTree}

theorem missingRoots_eq : t.missingRoots = t.nodes.flatMap fun node => node.own.missingRoots := by
  rw [missingRoots, ← map_own_nodes, List.flatMap_map]

theorem closuresOfAll_eq_flatMap (trees : List ClosureTree) :
    closuresOfAll trees = trees.flatMap closures := by
  induction trees with
  | nil => rfl
  | cons tree rest ih => rw [closuresOfAll, ih, List.flatMap_cons]

theorem missingRoots_node (own : Closure) (unresolved : List String)
    (followed : List ClosureTree) :
    (node own unresolved followed).missingRoots =
      own.missingRoots ++ followed.flatMap missingRoots := by
  rw [missingRoots, closures, List.flatMap_cons, closuresOfAll_eq_flatMap, List.flatMap_assoc]
  rfl

/-- Roots are missing from a tree if its own closure or a part that was followed misses some. -/
theorem hasMissingRoots_node (own : Closure) (unresolved : List String)
    (followed : List ClosureTree) :
    (node own unresolved followed).hasMissingRoots =
      (!own.missingRoots.isEmpty || followed.any hasMissingRoots) := by
  have none : (own.missingRoots ++ followed.flatMap missingRoots).isEmpty =
      (own.missingRoots.isEmpty && followed.all fun part => part.missingRoots.isEmpty) := by
    rw [Bool.eq_iff_iff, List.isEmpty_iff, List.append_eq_nil_iff, List.flatMap_eq_nil_iff]
    simp
  rw [hasMissingRoots, missingRoots_node, none, Bool.not_and, List.not_all_eq_any_not]
  rfl

/-- How many declarations the closures of a tree list, and how many closures there are. -/
def counts (t : ClosureTree) : Nat × Nat :=
  ((t.closures.flatMap Closure.declarations).length, t.closures.length)

theorem foldl_counts (followed : List ClosureTree) (before : Nat × Nat) :
    (followed.map counts).foldl (fun n part => (n.1 + part.1, n.2 + part.2)) before =
      (before.1 + ((closuresOfAll followed).flatMap Closure.declarations).length,
        before.2 + (closuresOfAll followed).length) := by
  induction followed generalizing before with
  | nil => rfl
  | cons tree rest ih =>
      rw [List.map_cons, List.foldl_cons, ih, closuresOfAll, List.flatMap_append,
        List.length_append, List.length_append, ← Nat.add_assoc, ← Nat.add_assoc]
      rfl

/-- A tree counts the declarations of its own closure and one file, and what its parts count. -/
theorem counts_node (own : Closure) (unresolved : List String) (followed : List ClosureTree) :
    (node own unresolved followed).counts =
      (followed.map counts).foldl (fun n part => (n.1 + part.1, n.2 + part.2))
        (own.declarations.length, 1) := by
  rw [foldl_counts, counts, closures, List.flatMap_cons, List.length_append, List.length_cons,
    Nat.add_comm 1]

end ClosureTree

namespace Report

open TypeClosure.Report.Span ClosureTree

variable {t : ClosureTree}

/-! ### Blocks -/

mutual
theorem blocks_eq_flatMap_levels (depth : Nat) : (tree : ClosureTree) →
    blocks depth tree = (tree.levels depth).flatMap fun node =>
      block node.1 node.2.own node.2.unresolved
  | .node own unresolved followed => by
      rw [blocks, levels, List.flatMap_cons, blocksOfAll_eq_flatMap_levels]
      rfl

theorem blocksOfAll_eq_flatMap_levels (depth : Nat) : (trees : List ClosureTree) →
    blocksOfAll depth trees = (levelsOfAll depth trees).flatMap fun node =>
      block node.1 node.2.own node.2.unresolved
  | [] => rfl
  | tree :: rest => by
      rw [blocksOfAll, levelsOfAll, List.flatMap_append, blocks_eq_flatMap_levels depth tree,
        blocksOfAll_eq_flatMap_levels depth rest]
end

theorem render_indent_cons (colours : Bool) (depth : Nat) (rest : Line) :
    Line.render colours (indent depth :: rest) =
      List.replicate (2 * depth) ' ' ++ Line.render colours rest := by
  simp [Line.render, indent, plain, Span.render]

/-- The lines of a block are those of the block of a start, further in. -/
theorem flatMap_render_block (colours : Bool) (depth : Nat) (c : Closure)
    (unresolved : List String) :
    (block depth c unresolved).flatMap (Line.render colours) =
      (block 0 c unresolved).flatMap fun line =>
        List.replicate (2 * depth) ' ' ++ Line.render colours line := by
  have names (style : Style) (heading : String) (names : List String) :
      (namesLine? depth style heading names).flatMap (Line.render colours) =
        (namesLine? 0 style heading names).flatMap fun line =>
          List.replicate (2 * depth) ' ' ++ Line.render colours line := by
    unfold namesLine?
    split
    · rfl
    · simp [render_indent_cons]
  simp only [block, List.flatMap_append, List.flatMap_cons, List.flatMap_map, entryLine,
    reexportLine, unresolvedLine, render_indent_cons, names, Nat.mul_zero, List.replicate_zero,
    List.nil_append]

theorem toList_render_closureLines (colours : Bool) (t : ClosureTree) :
    (render colours (closureLines t)).toList =
      ((t.levels 0).flatMap fun node => (block 0 node.2.own node.2.unresolved).flatMap fun line =>
        List.replicate (2 * node.1) ' ' ++ Line.render colours line) ++
      Line.render colours (summary t) := by
  rw [render, String.toList_ofList, closureLines, List.flatMap_append, List.flatMap_singleton,
    blocks_eq_flatMap_levels, List.flatMap_assoc]
  simp only [flatMap_render_block]

/-! ### Counts -/

/-- The line of a file; nothing else is written in bold alone. -/
def isHeading (line : Line) : Bool := line.any (·.style == some .bold)

/-- The line of a declaration; nothing but its kind is written in cyan. -/
def isEntry (line : Line) : Bool := line.any (·.style == some .cyan)

theorem countP_namesLine? {p : Line → Bool} {depth : Nat} {style : Style} {heading : String}
    (never : ∀ text, p [indent depth, plain "  ", styled style heading, plain text] = false)
    (names : List String) : (namesLine? depth style heading names).countP p = 0 := by
  unfold namesLine?
  split
  · rfl
  · rw [List.countP_singleton, never, if_neg Bool.false_ne_true]

/-- Only the first line of a block and those of declarations may count, if the others never do. -/
theorem countP_block {p : Line → Bool} {depth : Nat}
    (external : ∀ text, p [indent depth, plain "  ", styled .yellow "external:", plain text] = false)
    (missing : ∀ text, p [indent depth, plain "  ", styled .red "missing:", plain text] = false)
    (reexport : ∀ r, p (reexportLine depth r) = false)
    (warning : ∀ module, p (unresolvedLine depth module) = false)
    (c : Closure) (unresolved : List String) :
    (block depth c unresolved).countP p =
      c.declarations.countP (fun e => p (entryLine depth e)) +
        if p [indent depth, styled .bold c.file, plain ":"] then 1 else 0 := by
  simp only [block, List.cons_append, List.countP_cons, List.countP_append, List.countP_map,
    Function.comp_def, reexport, warning, countP_namesLine? external, countP_namesLine? missing,
    List.countP_false, Function.const_apply, Nat.add_zero]

theorem countP_isHeading_block (depth : Nat) (c : Closure) (unresolved : List String) :
    (block depth c unresolved).countP isHeading = 1 := by
  have entry (e : ClosureEntry) : isHeading (entryLine depth e) = false := rfl
  have first : isHeading [indent depth, styled .bold c.file, plain ":"] = true := rfl
  rw [countP_block (fun _ => rfl) (fun _ => rfl) (fun _ => rfl) (fun _ => rfl), first]
  simp [entry]

theorem countP_isEntry_block (depth : Nat) (c : Closure) (unresolved : List String) :
    (block depth c unresolved).countP isEntry = c.declarations.length := by
  have entry (e : ClosureEntry) : isEntry (entryLine depth e) = true := rfl
  have first : isEntry [indent depth, styled .bold c.file, plain ":"] = false := rfl
  rw [countP_block (fun _ => rfl) (fun _ => rfl) (fun _ => rfl) (fun _ => rfl), first]
  simp [entry]

theorem countP_isHeading_blocks (t : ClosureTree) :
    (blocks 0 t).countP isHeading = t.closures.length := by
  rw [blocks_eq_flatMap_levels, ← map_own_nodes, ← map_snd_levels 0]
  simp [List.countP_flatMap, countP_isHeading_block, Function.comp_def]

theorem countP_isEntry_blocks (t : ClosureTree) :
    (blocks 0 t).countP isEntry = (t.closures.flatMap Closure.declarations).length := by
  rw [blocks_eq_flatMap_levels, ← map_own_nodes, ← map_snd_levels 0]
  simp [List.countP_flatMap, List.length_flatMap, countP_isEntry_block, Function.comp_def]

/-! ### The last line -/

/-- The summary of some declarations from some files. -/
def collectedLine (declarations files : Nat) : Line :=
  [styled .green "\u2713", plain " ", styled .green ("Collected " ++ toString declarations ++ " " ++
    (if declarations = 1 then "declaration" else "declarations") ++ " from " ++ toString files ++
    " " ++ (if files = 1 then "file" else "files"))]

/-- The summary of roots that are missing. -/
def notFoundLine (names : List String) : Line :=
  [styled .red "\u2718", plain " ", styled .red ((if names.length = 1 then "Type" else "Types") ++
    " not found: " ++ String.intercalate ", " names)]

theorem collectedLine_ne_notFoundLine (declarations files : Nat) (names : List String) :
    collectedLine declarations files ≠ notFoundLine names := by
  intro same
  have marks := congrArg Span.style (List.cons.inj same).1
  cases marks

theorem summary_eq (t : ClosureTree) :
    summary t = if t.hasMissingRoots then notFoundLine t.missingRoots
      else collectedLine t.counts.1 t.counts.2 := by
  have counted : t.closures.foldl (fun n c => n + c.declarations.length) 0 =
      (t.closures.flatMap Closure.declarations).length := by
    rw [List.length_flatMap, List.sum_eq_foldl, List.foldl_map]
  rw [summary, counted, hasMissingRoots]
  cases t.missingRoots.isEmpty with
  | true => rfl
  | false => rfl

theorem summary_congr {t t' : ClosureTree} (same : t'.closures = t.closures) :
    summary t' = summary t ∧ t'.hasMissingRoots = t.hasMissingRoots := by
  constructor
  · rw [summary, summary, missingRoots, missingRoots, same]
  · rw [hasMissingRoots, hasMissingRoots, missingRoots, missingRoots, same]

end Report

open Report Command

/-- A command comes to a closure tree. -/
def Command.Builds (files : FileTree) (a : ClosureArguments) (t : ClosureTree) : Prop :=
  ∃ loaded, files.loadConfig (FileTree.pathOf files.current) = .ok loaded ∧
    (requestedClosure files a loaded.config).1 = .ok t

theorem runClosure_of_builds {files : FileTree} {a : ClosureArguments} {t : ClosureTree}
    (builds : Builds files a t) :
    (runClosure files a).output = (if a.json then .json t.toJson else .lines (closureLines t)) ∧
      (runClosure files a).ending = endingOf (!t.hasMissingRoots) := by
  obtain ⟨loaded, found, built⟩ := builds
  unfold runClosure
  rw [found]
  dsimp only
  generalize requestedClosure files a loaded.config = run at built ⊢
  obtain ⟨result, steps⟩ := run
  cases built
  exact ⟨rfl, rfl⟩

/-- The report of a closure tree agrees with it. The text consists of the blocks of the nodes, each
node before those that were followed from it and two blanks further in for each of them on the way,
with the modules that could not be found as warnings, and of one line more. That line says that
roots were not found if and only if some node misses roots, and names those of all nodes in their
order; else it counts the declarations and the files that are written above it. A command that
builds the tree fails in just that case, whether it writes text or JSON. Modules that could not be
found count for neither. -/
theorem report_agrees (t : ClosureTree) (colours : Bool) :
    ((render colours (closureLines t)).toList =
        ((t.levels 0).flatMap fun node =>
          (block 0 node.2.own node.2.unresolved).flatMap fun line =>
            List.replicate (2 * node.1) ' ' ++ Line.render colours line) ++
        Line.render colours (summary t) ∧
      (t.levels 0).map Prod.snd = t.nodes ∧
      ∀ node ∈ t.nodes, block 0 node.own node.unresolved =
        block 0 node.own [] ++ node.unresolved.map (unresolvedLine 0)) ∧
    ((∃ names, summary t = notFoundLine names) ↔ t.hasMissingRoots = true) ∧
    t.hasMissingRoots = (!t.own.missingRoots.isEmpty || t.followed.any ClosureTree.hasMissingRoots) ∧
    (t.hasMissingRoots = true →
      summary t = notFoundLine (t.nodes.flatMap fun node => node.own.missingRoots)) ∧
    (t.hasMissingRoots = false →
      summary t = collectedLine ((closureLines t).dropLast.countP isEntry)
        ((closureLines t).dropLast.countP isHeading)) ∧
    (∀ change, summary (t.withUnresolved change) = summary t ∧
      (t.withUnresolved change).hasMissingRoots = t.hasMissingRoots) ∧
    ∀ files a, Builds files a t →
      (runClosure files a).output = (if a.json then .json t.toJson else .lines (closureLines t)) ∧
      ((runClosure files a).ending = .failure ↔ t.hasMissingRoots = true) ∧
      ((runClosure files a).ending = .success ↔ t.hasMissingRoots = false) := by
  have above : (closureLines t).dropLast = blocks 0 t := List.dropLast_concat
  refine ⟨⟨toList_render_closureLines colours t, ClosureTree.map_snd_levels 0 t, ?_⟩, ?_, ?_, ?_,
    ?_, ?_, ?_⟩
  · intro node _
    simp [block]
  · rw [summary_eq]
    cases t.hasMissingRoots with
    | true => exact iff_of_true ⟨_, rfl⟩ rfl
    | false =>
        refine iff_of_false ?_ Bool.false_ne_true
        rintro ⟨names, same⟩
        exact collectedLine_ne_notFoundLine _ _ _ same
  · cases t with
    | node own unresolved followed => exact ClosureTree.hasMissingRoots_node own unresolved followed
  · intro missing
    rw [summary_eq, if_pos missing, ClosureTree.missingRoots_eq]
  · intro complete
    rw [summary_eq, complete, above, countP_isEntry_blocks, countP_isHeading_blocks]
    rfl
  · intro change
    exact summary_congr (ClosureTree.closures_withUnresolved change t)
  · intro files a builds
    obtain ⟨output, ending⟩ := runClosure_of_builds builds
    refine ⟨output, ?_⟩
    rw [ending]
    cases t.hasMissingRoots with
    | true => simp [endingOf]
    | false => simp [endingOf]

/-- A page whose parts lead through three files, with two names that no file declares, and a module
that is not there. -/
def incomplete : FileTree where
  current := ["w"]
  entries := [(["w"], .directory),
    (["w", "index.ts"], .file (some
      "export { A } from './a'; export { X } from './nowhere'; interface Page { a: A; x: X }")),
    (["w", "a.ts"], .file (some "export { Ghost } from './b'; export interface A { g: Ghost }")),
    (["w", "b.ts"], .file (some "export interface Other {}"))]

theorem report_agrees_incomplete :
    let a : ClosureArguments :=
      { file := "index.ts", types := ["Page", "Nope"], followReexports := true }
    ∃ t, Builds incomplete a t ∧ (t.levels 0).map Prod.fst = [0, 1, 2] ∧
      summary t = notFoundLine ["Nope", "Ghost"] ∧ (runClosure incomplete a).ending = .failure := by
  intro a
  obtain ⟨t, built, depths, missing, some⟩ : ∃ t, (requestedClosure incomplete a {}).1 = .ok t ∧
      (t.levels 0).map Prod.fst = [0, 1, 2] ∧ t.hasMissingRoots = true ∧
      (t.nodes.flatMap fun node => node.own.missingRoots) = ["Nope", "Ghost"] := by
    decide +kernel
  have builds : Builds incomplete a t := ⟨{}, by decide +kernel, built⟩
  obtain ⟨_, _, _, named, _, _, ends⟩ := report_agrees t false
  obtain ⟨_, fails, _⟩ := ends incomplete a builds
  exact ⟨t, builds, depths, some ▸ named missing, fails.mpr missing⟩

end TypeClosure

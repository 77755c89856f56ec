import Mathlib.Data.List.Forall2
import TypeClosure.Proofs.Glob.Search
import TypeClosure.Proofs.ModuleLookup
import TypeClosure.Proofs.PathExpansion

/-!
Paths that are read as patterns. What a path leads to is found where each of its components, read as
a pattern, matches itself; it is not where the last component does not.
-/

namespace TypeClosure.Glob

open FileTree

variable {t : FileTree} {text : String}

/-! ### Components that match themselves -/

/-- A component of a path that, read as a pattern, matches itself. -/
structure Fits (name : String) (p : Pattern) : Prop where
  read : Pattern.read name = .ok p
  noSlash : '/' ∉ name.toList
  matched : p.matches name = true

variable {name : String} {names : List String} {p q : Pattern} {ps : List Pattern}

theorem Fits.properName (fits : Fits name p) (special : p.isLiteral = false) : ProperName name := by
  -- The components that are no names hold nothing but dots, so they are literal.
  have plain {other : String} {ts : List Token} (read : Pattern.read other = .ok ⟨other, ts⟩)
      (literal : (Pattern.mk other ts).isLiteral = true) : name ≠ other := by
    rintro rfl
    cases read.symm.trans fits.read
    exact Bool.false_ne_true (special.symm.trans literal)
  have empty : Pattern.read "" = .ok ⟨"", []⟩ := by decide +kernel
  have here : Pattern.read "." = .ok ⟨".", [.literal '.']⟩ := by decide +kernel
  have up : Pattern.read ".." = .ok ⟨"..", [.literal '.', .literal '.']⟩ := by decide +kernel
  have notEmpty := plain empty rfl
  have notHere := plain here rfl
  have notUp := plain up rfl
  refine ⟨fits.noSlash, ?_, fun up => notUp (String.toList_injective up)⟩
  rw [Path.isEmptySegment, Bool.or_eq_false_iff, beq_eq_false_iff_ne, beq_eq_false_iff_ne]
  exact ⟨fun none => notEmpty (String.toList_injective none),
    fun here => notHere (String.toList_injective here)⟩

theorem Fits.retraces_cons (fits : Fits name p) (single : p.isRecursive = false)
    (rest : Retraces ps names) : Retraces (p :: ps) (name :: names) := by
  have same := (Pattern.read_eq_ok fits.read).1
  cases literal : p.isLiteral with
  | true => exact same ▸ .literal literal (same ▸ fits.noSlash) rest
  | false => exact .wildcard literal single (fits.properName literal) fits.matched rest

theorem Fits.isRecursive_iff (fits : Fits name p) : p.isRecursive = true ↔ name = "**" :=
  Pattern.isRecursive_iff fits.read fits.noSlash

/-- A pattern `**` stands for one directory more. -/
theorem Retraces.prepend (retraces : Retraces (p :: ps) names) (recursive : p.isRecursive = true)
    (proper : ProperName name) : Retraces (p :: ps) (name :: names) := by
  cases retraces with
  | literal literal =>
      exact absurd (literal.symm.trans (Pattern.isLiteral_of_isRecursive recursive)) (by decide)
  | wildcard _ single => exact absurd (recursive.symm.trans single) (by decide)
  | @recursive _ _ _ between last others _ names here rest =>
      exact @Retraces.recursive _ _ _ (name :: between) last others recursive
        (List.forall_mem_cons.mpr ⟨proper, names⟩) here rest

/-! ### Patterns without repeated `**` -/

theorem collapse_cons (single : p.isRecursive = false) :
    collapse (p :: ps) = p :: collapse ps := by
  cases ps with
  | nil => rfl
  | cons q ps => rw [collapse, single, Bool.false_and, if_neg Bool.false_ne_true]

theorem exists_collapse (ps : List Pattern) (recursive : p.isRecursive = true) :
    ∃ first rest, collapse (p :: ps) = first :: rest ∧ first.isRecursive = true := by
  induction ps generalizing p with
  | nil => exact ⟨p, [], rfl, recursive⟩
  | cons q ps ih =>
      rw [collapse]
      split
      · next both => exact ih (by simpa [recursive] using both)
      · exact ⟨p, _, rfl, recursive⟩

theorem getLast?_collapse (ps : List Pattern) : (collapse ps).getLast? = ps.getLast? := by
  induction ps with
  | nil => rfl
  | cons p ps ih =>
      cases ps with
      | nil => rfl
      | cons q ps =>
          rw [collapse]
          split
          · exact ih
          · rw [List.getLast?_cons, ih]
            rfl

/-- Components that match themselves are retraced by the patterns that they are, if behind each
`**` another one follows or a name. -/
theorem retraces_collapse : {names : List String} → {ps : List Pattern} →
    List.Forall₂ Fits names ps →
    names.IsChain (fun name next => name = "**" → next = "**" ∨ ProperName next) →
    names.getLast? ≠ some "**" → Retraces (collapse ps) names
  | _, _, .nil, _, _ => .nil
  | _, _, .cons fits .nil, _, last => by
      refine fits.retraces_cons ?_ .nil
      rw [← Bool.not_eq_true, fits.isRecursive_iff]
      rintro rfl
      exact last rfl
  | name :: next :: names, p :: q :: ps, .cons fits (.cons fits' rest), chain, last => by
      obtain ⟨here, chain⟩ := List.isChain_cons_cons.mp chain
      have later := retraces_collapse (.cons fits' rest) chain last
      cases recursive : p.isRecursive with
      | false =>
          rw [collapse_cons recursive]
          exact fits.retraces_cons recursive later
      | true =>
          cases recursive' : q.isRecursive with
          | true =>
              obtain ⟨first, others, eq, both⟩ := exists_collapse ps recursive'
              rw [collapse, recursive, recursive', Bool.and_self, if_pos rfl, eq]
              rw [eq] at later
              exact later.prepend both
                (fits.properName (Pattern.isLiteral_of_isRecursive recursive))
          | false =>
              have proper : ProperName next :=
                (here (fits.isRecursive_iff.mp recursive)).resolve_left fun again =>
                  absurd (recursive'.symm.trans (fits'.isRecursive_iff.mpr again)) (by decide)
              have behind : Retraces (collapse ps) names := by
                refine retraces_collapse rest chain.of_cons fun ends => last ?_
                rw [List.getLast?_cons_cons, List.getLast?_cons, ends]
                rfl
              rw [collapse, recursive', Bool.and_false, if_neg Bool.false_ne_true,
                collapse_cons recursive']
              refine @Retraces.recursive p q _ [name] next names recursive ?_ fits'.matched behind
              intro other member
              rcases List.mem_cons.mp member with rfl | last
              · exact fits.properName (Pattern.isLiteral_of_isRecursive recursive)
              · exact List.mem_singleton.mp last ▸ proper

/-! ### The components of a path to a file -/

/-- The texts of the patterns that a path is searched by. -/
def patternTexts (text : String) : List String :=
  componentTexts (if Path.isAbsolute text then text.toList.drop 1 else text.toList)

theorem mapM_eq_ok {ε α β : Type} {f : α → Except ε β} {xs : List α} {ys : List β} :
    xs.mapM f = .ok ys ↔ List.Forall₂ (fun x y => f x = .ok y) xs ys := by
  induction xs generalizing ys with
  | nil => simp [pure, Except.pure, eq_comm]
  | cons x xs ih =>
      rw [List.mapM_cons, List.forall₂_cons_left_iff]
      cases first : f x with
      | error fault => simp [bind, Except.bind]
      | ok y =>
          cases rest : xs.mapM f with
          | error fault => simp [bind, Except.bind, ← ih, rest]
          | ok zs => simp [bind, Except.bind, pure, Except.pure, ← ih, rest, eq_comm]

/-- Where the search for a pattern starts. -/
def startOf (text : String) : String := if Path.isAbsolute text then "/" else "."

theorem expand_eq_ok {found : List String} :
    expand t text = .ok found ↔ (∃ whole, Pattern.read text = .ok whole) ∧
      ∃ ps, List.Forall₂ (fun name p => Pattern.read name = .ok p) (patternTexts text) ps ∧
        found = if ps.isEmpty then [] else
          expandFrom t (text.toList.getLast? = some '/') (collapse ps) (startOf text) := by
  simp only [← mapM_eq_ok]
  unfold expand patternTexts startOf
  dsimp only
  cases Pattern.read text with
  | error fault => simp [bind, Except.bind]
  | ok whole =>
      generalize List.mapM Pattern.read (componentTexts (if Path.isAbsolute text = true then
        text.toList.drop 1 else text.toList)) = run
      cases run with
      | error fault => simp [bind, Except.bind]
      | ok ps =>
          have same {one other : List String} :
              (Except.ok one : Except Fault (List String)) = .ok other ↔ other = one :=
            ⟨fun eq => (Except.ok.inj eq).symm, fun eq => congrArg Except.ok eq.symm⟩
          simp only [Except.ok.injEq, exists_eq_left', exists_eq', true_and, bind, Except.bind]
          cases ps.isEmpty with
          | true => exact same
          | false => exact same

theorem componentTexts_of_named {cs last : List Char} {init : List (List Char)}
    (cut : segments cs = init ++ [last]) (named : last ≠ []) :
    componentTexts cs = (segments cs).map String.ofList := by
  have ends : (segments cs).getLast? ≠ some [] := by
    rw [cut, List.getLast?_concat]
    exact fun same => named (Option.some.inj same)
  rw [componentTexts]
  simp only [ends, if_false]

/-- The slash in front of an absolute path is left out of the components that it is searched by. -/
theorem exists_patternTexts {last : List Char} {init : List (List Char)}
    (cut : segments text.toList = init ++ [last]) (named : last ≠ []) :
    ∃ above, patternTexts text = (above ++ [last]).map String.ofList ∧
      init = if Path.isAbsolute text then [] :: above else above := by
  unfold patternTexts
  cases absolute : Path.isAbsolute text with
  | false =>
      refine ⟨init, ?_, rfl⟩
      rw [if_neg Bool.false_ne_true, componentTexts_of_named cut named, cut]
  | true =>
      obtain ⟨rest, eq⟩ := List.head?_eq_some_iff.mp (beq_iff_eq.mp absolute)
      rw [eq] at cut ⊢
      rw [segments_slash] at cut
      cases init with
      | nil => exact absurd (List.cons.inj cut).2 (segments_ne_nil rest)
      | cons s init =>
          obtain ⟨rfl, inner⟩ := List.cons.inj cut
          refine ⟨init, ?_, rfl⟩
          change componentTexts rest = _
          rw [componentTexts_of_named inner named, inner]
          rfl

/-- A path to a source file ends in a name. -/
theorem exists_name_of_isFile {place : List String} (located : t.locate text = .ok place)
    (fileAt : t.FileAt place) (source : isTypeScript text = true) :
    ∃ init last, segments text.toList = init ++ [last] ∧ ProperName (String.ofList last) ∧
      Path.fileName? text = some (String.ofList last) := by
  obtain ⟨init, last, cut⟩ : ∃ init last, segments text.toList = init ++ [last] :=
    ⟨_, _, (List.dropLast_concat_getLast (segments_ne_nil _)).symm⟩
  have components : Path.components text =
      Path.front text ++ Path.componentsOf init ++ Path.componentsOf [last] := by
    rw [Path.components_eq, cut, Path.componentsOf_append, List.append_assoc]
  rw [locate_eq_walk (ne_empty_of_locate located), cut, walk_append_eq_ok] at located
  obtain ⟨_, _, step⟩ := located
  obtain ⟨isDirectory, ⟨_, rfl⟩ | ⟨rfl, _⟩ | ⟨nonempty, notUp, -, _⟩⟩ := walk_step step
  · exact absurd isDirectory fileAt.ne_directory
  · have up : Path.componentsOf [['.', '.']] = [.up] := by decide +kernel
    have nameless : Path.fileName? text = none := by
      rw [Path.fileName?, components, up, List.getLast?_concat]
    rw [isTypeScript, Path.extension?, nameless] at source
    cases source
  · have inside : last ∈ segments text.toList := by simp [cut]
    have proper : ProperName (String.ofList last) := by
      constructor
      · rw [String.toList_ofList]
        exact noSlash_of_mem_segments inside
      · rw [String.toList_ofList]
        exact nonempty
      · rw [String.toList_ofList]
        exact notUp
    refine ⟨init, last, cut, proper, ?_⟩
    have single := componentsOf_of_properName proper
    rw [String.toList_ofList] at single
    rw [fileName?_eq_some, components, single, List.getLast?_concat]

/-- A path leads to a file with a name: through the components that it is searched by, the last of
which is the name. -/
structure LeadsToNamed (t : FileTree) (text name : String) (place : List String) : Prop where
  located : t.locate text = .ok place
  fileName : Path.fileName? text = some name
  proper : ProperName name
  last : (patternTexts text).getLast? = some name
  noSlash : ∀ other ∈ patternTexts text, '/' ∉ other.toList
  unslashed : text.toList.getLast? ≠ some '/'
  walked : t.walk (t.origin text) ((patternTexts text).map String.toList) = .ok place

theorem leadsToNamed_of_isFile (file : t.isFile text = true) (source : isTypeScript text = true) :
    ∃ name place, LeadsToNamed t text name place := by
  obtain ⟨place, located, fileAt⟩ := isFile_iff.mp file
  obtain ⟨init, last, cut, proper, named⟩ := exists_name_of_isFile located fileAt source
  have nonempty : last ≠ [] := fun none => proper.ne_empty (by rw [none])
  obtain ⟨above, texts, eq⟩ := exists_patternTexts cut nonempty
  have back : (patternTexts text).map String.toList = above ++ [last] := by
    simp [texts, List.map_map, Function.comp_def]
  refine ⟨String.ofList last, place, located, named, proper, ?_, fun other member => ?_, ?_, ?_⟩
  · rw [texts, List.map_append, List.map_singleton, List.getLast?_concat]
  · have inside : other.toList ∈ above ++ [last] := back ▸ List.mem_map_of_mem member
    have held : other.toList ∈ segments text.toList := by
      rw [cut, eq]
      split
      · exact List.mem_cons_of_mem _ inside
      · exact inside
    exact noSlash_of_mem_segments held
  · intro ends
    obtain ⟨front, slashed⟩ := List.getLast?_eq_some_iff.mp ends
    rw [slashed, segments_append_slash, segments_nil] at cut
    exact nonempty (List.singleton_inj.mp (List.append_inj' cut rfl).2).symm
  · rw [locate_eq_walk (ne_empty_of_locate located), cut, eq] at located
    rw [back]
    split at located
    · rwa [List.cons_append, walk_emptySegment _ rfl (by simp)] at located
    · exact located

/-! ### Files that are found by their paths -/

/-- The patterns of a path lead along the path: each component matches itself, behind each `**`
another one follows or a name, and a relative path has no empty component behind dots alone. -/
structure NamesItself (text : String) : Prop where
  matched : ∀ name ∈ patternTexts text, ∀ p, Pattern.read name = .ok p → p.matches name = true
  behindRecursive : (patternTexts text).IsChain fun name next =>
    name = "**" → next = "**" ∨ ProperName next
  start : Path.isAbsolute text = true ∨
    ((patternTexts text).dropWhile (· = ".")).head? ≠ some ""

theorem isTypeScript_congr {path other : String}
    (same : Path.fileName? path = Path.fileName? other) :
    isTypeScript path = isTypeScript other := by
  rw [isTypeScript, isTypeScript, Path.extension?, Path.extension?, same]

theorem ne_recursive_of_isTypeScript (named : Path.fileName? text = some name)
    (source : isTypeScript text = true) : name ≠ "**" := by
  rintro rfl
  have same : Path.fileName? text = Path.fileName? "**" := named.trans (by decide +kernel)
  rw [isTypeScript_congr same] at source
  exact absurd source (by decide +kernel)

theorem locate_startOf (directory : t.entryAt? (t.origin text) = some .directory) :
    t.locate (startOf text) = .ok (t.origin text) := by
  unfold startOf origin at *
  split
  · rfl
  · next relative =>
      rw [if_neg relative] at directory
      change t.walk t.current [['.']] = .ok t.current
      simp [walk, directory, Path.isEmptySegment]

theorem exists_found_of_namesItself {place : List String} {found : List String}
    (leads : LeadsToNamed t text name place) (source : isTypeScript text = true)
    (itself : NamesItself text) (expanded : expand t text = .ok found) :
    ∃ path ∈ found, t.locate path = .ok place ∧ Path.fileName? path = some name := by
  obtain ⟨-, ps, read, rfl⟩ := expand_eq_ok.mp expanded
  have nonempty : patternTexts text ≠ [] := fun none => by simpa [none] using leads.last
  have fits : List.Forall₂ Fits (patternTexts text) ps := by
    have each := (List.forall₂_and_left _ _).mpr
      ⟨fun name member => And.intro (leads.noSlash name member) (itself.matched name member), read⟩
    exact each.imp fun _ _ ⟨⟨noSlash, matched⟩, read⟩ => ⟨read, noSlash, matched _ read⟩
  have retraces : Retraces (collapse ps) (patternTexts text) := by
    refine retraces_collapse fits itself.behindRecursive ?_
    rw [leads.last]
    exact fun same => ne_recursive_of_isTypeScript leads.fileName source (Option.some.inj same)
  have located := locate_startOf (directory_of_walk (by simpa using nonempty) leads.walked)
  have start : Path.components (startOf text) = [.here] →
      ((patternTexts text).dropWhile (· = ".")).head? ≠ some "" := by
    intro here
    refine itself.start.resolve_left fun absolute => ?_
    rw [startOf, if_pos absolute] at here
    exact absurd here (by decide +kernel)
  obtain ⟨path, member, arrived, -, last⟩ := retraces.exists_found located start leads.walked
  refine ⟨path, ?_, arrived, last name leads.last leads.proper⟩
  have some : ps.isEmpty = false := by
    rw [List.isEmpty_eq_false_iff]
    rintro rfl
    exact nonempty (List.forall₂_nil_right_iff.mp read)
  rw [some, if_neg Bool.false_ne_true, decide_eq_false leads.unslashed]
  exact member

/-- What stands in a component of a pattern stands in its text. -/
theorem subset_of_mem_patternTexts (member : name ∈ patternTexts text) :
    name.toList ⊆ text.toList := by
  have inside {cs : List Char} (among : name ∈ componentTexts cs) : name.toList ⊆ cs := by
    obtain ⟨s, kept, rfl⟩ := List.mem_map.mp among
    have cut : s ∈ segments cs := by
      split at kept
      · exact List.dropLast_subset _ kept
      · exact kept
    rw [String.toList_ofList]
    intro c held
    have flat : c ∈ (segments cs).flatten := List.mem_flatten_of_mem cut held
    rw [Path.flatten_segments] at flat
    exact (List.mem_filter.mp flat).1
  unfold patternTexts at member
  split at member
  · exact List.Subset.trans (inside member) (List.drop_subset 1 _)
  · exact inside member

/-- Without brackets each component of a path matches itself. -/
theorem matches_of_mem_patternTexts (plain : '[' ∉ text.toList) (member : name ∈ patternTexts text)
    (read : Pattern.read name = .ok p) : p.matches name = true :=
  Pattern.matches_self read fun bracket => plain (subset_of_mem_patternTexts member bracket)

theorem getLast?_of_forall₂ {α β : Type} {R : α → β → Prop} {xs : List α} {ys : List β}
    (each : List.Forall₂ R xs ys) {x : α} (last : xs.getLast? = some x) :
    ∃ y, ys.getLast? = some y ∧ R x y := by
  obtain ⟨front, rfl⟩ := List.getLast?_eq_some_iff.mp last
  have reversed := List.forall₂_reverse_iff.mpr each
  rw [List.reverse_concat, List.forall₂_cons_left_iff] at reversed
  obtain ⟨y, others, related, -, eq⟩ := reversed
  refine ⟨y, ?_, related⟩
  rw [← List.head?_reverse, eq]
  rfl

/-- Where the last component of a path does not match itself, the path is not found by its
patterns. -/
theorem locate_ne_of_mismatch {place : List String} (leads : LeadsToNamed t text name place)
    (source : isTypeScript text = true) (read : Pattern.read name = .ok p)
    (mismatch : p.matches name = false) {path : String} (stands : StandsFor t text path) :
    t.locate path ≠ .ok place := by
  intro located
  have member : name ∈ patternTexts text := List.mem_of_getLast? leads.last
  cases stands with
  | path plain =>
      have noBracket : '[' ∉ text.toList := by
        intro bracket
        have pattern : isPattern text = true := List.any_eq_true.mpr ⟨'[', bracket, rfl⟩
        exact Bool.false_ne_true (plain.symm.trans pattern)
      have matched := matches_of_mem_patternTexts noBracket member read
      exact Bool.false_ne_true (mismatch.symm.trans matched)
  | @file _ found _ expanded among isFile isSource =>
      obtain ⟨-, ps, each, rfl⟩ := expand_eq_ok.mp expanded
      have special : p.isLiteral = false := by
        rw [← Bool.not_eq_true]
        intro literal
        have matched := Pattern.matches_self_of_isLiteral read literal
        exact Bool.false_ne_true (mismatch.symm.trans matched)
      have single : p.isRecursive = false := by
        rw [← Bool.not_eq_true, Pattern.isRecursive_iff read leads.proper.noSlash]
        exact ne_recursive_of_isTypeScript leads.fileName source
      have ends : (collapse ps).getLast? = some p := by
        obtain ⟨last, ends, readLast⟩ := getLast?_of_forall₂ each leads.last
        cases read.symm.trans readLast
        rw [getLast?_collapse, ends]
      obtain ⟨other, located', fileAt⟩ := isFile_iff.mp isFile
      obtain ⟨init, last, -, -, named⟩ := exists_name_of_isFile located' fileAt isSource
      split at among
      · exact absurd among List.not_mem_nil
      · have matched := matchesName_of_mem_expandFrom special single isFile (by simp [named]) _ ends
          among
        rw [matchesName_of_fileName? named] at matched
        -- Both paths end in the name of the place.
        have same := (getLast?_of_locate located named).symm.trans
          (getLast?_of_locate leads.located leads.fileName)
        cases same
        exact Bool.false_ne_true (mismatch.symm.trans matched)

end TypeClosure.Glob

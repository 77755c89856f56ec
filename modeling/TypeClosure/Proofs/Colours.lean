import TypeClosure.Proofs.TreeReport

/-!
Colours are presentation only. A text that is written with colours holds an escape sequence before
and behind each span with a style, and nothing else is added: without these sequences it is the text
that is written without colours.
-/

namespace TypeClosure

/-! ### What is written -/

def Reexport.writtenTexts (r : Reexport) : List String := r.module :: r.names

/-- The texts that the report of a closure holds. Its roots and the origins of names are not
written. -/
def Closure.writtenTexts (c : Closure) : List String :=
  c.file :: c.declarations.map ClosureEntry.name ++ c.external ++
    c.reexports.flatMap Reexport.writtenTexts ++ c.missingRoots

def ClosureTree.writtenTexts (t : ClosureTree) : List String :=
  t.nodes.flatMap fun node => node.own.writtenTexts ++ node.unresolved

def ListedDeclaration.writtenTexts (d : ListedDeclaration) : List String := d.name :: d.mentions

def Listing.writtenTexts (l : Listing) : List String :=
  l.file :: l.declarations.flatMap ListedDeclaration.writtenTexts ++
    l.reexports.flatMap Reexport.writtenTexts

namespace Report

open TypeClosure.Report.Span

/-! ### Escape sequences -/

/-- Whether a character may stand among the numbers of an escape sequence. -/
def isCode (c : Char) : Bool := c.isDigit || c == ';'

/-- What stands behind the numbers and the last letter of an escape sequence, if it is complete. -/
def afterCodes? : List Char → Option (List Char)
  | [] => none
  | c :: rest => if c = 'm' then some rest else if isCode c then afterCodes? rest else none

theorem length_of_afterCodes? {cs rest : List Char} (found : afterCodes? cs = some rest) :
    rest.length < cs.length := by
  induction cs with
  | nil => contradiction
  | cons c cs ih =>
      rw [afterCodes?] at found
      split at found
      · cases found
        exact Nat.lt_succ_self _
      · split at found
        · exact Nat.lt_trans (ih found) (Nat.lt_succ_self _)
        · contradiction

/-- What stands behind the escape sequence at the front of a text, if there is one. -/
def afterSequence? : List Char → Option (List Char)
  | '\x1b' :: '[' :: rest => afterCodes? rest
  | _ => none

theorem length_of_afterSequence? {cs rest : List Char} (found : afterSequence? cs = some rest) :
    rest.length < cs.length := by
  unfold afterSequence? at found
  split at found
  · have shorter := length_of_afterCodes? found
    simp only [List.length_cons]
    omega
  · contradiction

/-- Characters without the escape sequences among them. -/
def unstyled : List Char → List Char
  | [] => []
  | c :: cs =>
      match _ : afterSequence? (c :: cs) with
      | some rest => unstyled rest
      | none => c :: unstyled cs
termination_by cs => cs.length
decreasing_by
  · exact length_of_afterSequence? ‹_›
  · exact Nat.lt_succ_self _

/-- A text without its escape sequences. -/
def withoutSequences (text : String) : String := String.ofList (unstyled text.toList)

theorem afterCodes?_append {codes : List Char} (all : ∀ c ∈ codes, isCode c = true)
    (rest : List Char) : afterCodes? (codes ++ 'm' :: rest) = some rest := by
  induction codes with
  | nil => rfl
  | cons c codes ih =>
      have isOne : isCode c = true := all c List.mem_cons_self
      have notLast : c ≠ 'm' := by
        rintro rfl
        contradiction
      rw [List.cons_append, afterCodes?, if_neg notLast, if_pos isOne]
      exact ih fun d member => all d (List.mem_cons_of_mem _ member)

@[simp] theorem unstyled_nil : unstyled [] = [] := by
  rw [unstyled]

theorem unstyled_of_some {c : Char} {cs rest : List Char}
    (found : afterSequence? (c :: cs) = some rest) : unstyled (c :: cs) = unstyled rest := by
  rw [unstyled.eq_def]
  dsimp only
  split
  · next other same =>
      cases same.symm.trans found
      rfl
  · next none =>
      cases none.symm.trans found

theorem unstyled_of_none {c : Char} {cs : List Char} (none : afterSequence? (c :: cs) = none) :
    unstyled (c :: cs) = c :: unstyled cs := by
  rw [unstyled.eq_def]
  dsimp only
  split
  · next found =>
      cases none.symm.trans found
  · rfl

theorem unstyled_escapeSequence {codes : String} (all : ∀ c ∈ codes.toList, isCode c = true)
    (rest : List Char) : unstyled (escapeSequence codes ++ rest) = unstyled rest := by
  have found : afterSequence? (escapeSequence codes ++ rest) = some rest := by
    simpa [escapeSequence, afterSequence?] using afterCodes?_append all rest
  exact unstyled_of_some found

theorem afterSequence?_cons {c : Char} (other : c ≠ '\x1b') (rest : List Char) :
    afterSequence? (c :: rest) = none := by
  unfold afterSequence?
  split
  · next same => exact absurd (List.cons.inj same).1 other
  · rfl

theorem unstyled_append {cs : List Char} (free : '\x1b' ∉ cs) (rest : List Char) :
    unstyled (cs ++ rest) = cs ++ unstyled rest := by
  induction cs with
  | nil => rfl
  | cons c cs ih =>
      obtain ⟨other, free⟩ := not_or.mp (mt List.mem_cons.mpr free)
      rw [List.cons_append, unstyled_of_none (afterSequence?_cons (Ne.symm other) _), ih free,
        List.cons_append]

theorem isCode_codes (style : Style) : ∀ c ∈ style.codes.toList, isCode c = true := by
  cases style <;> simp [Style.codes, isCode]

theorem unstyled_resetSequence (rest : List Char) :
    unstyled (resetSequence ++ rest) = unstyled rest :=
  unstyled_escapeSequence (by simp [isCode]) rest

theorem restyled_of_free {cs : List Char} (free : '\x1b' ∉ cs) (style : List Char) :
    restyled style cs = cs := by
  induction cs with
  | nil => rfl
  | cons c cs ih =>
      obtain ⟨other, free⟩ := not_or.mp (mt List.mem_cons.mpr free)
      rw [restyled, ih free]
      rintro rest rfl
      contradiction

/-! ### Lines -/

/-- A text without a character that could start an escape sequence. -/
def Unescaped (text : String) : Prop := '\x1b' ∉ text.toList

instance (text : String) : Decidable (Unescaped text) :=
  inferInstanceAs (Decidable ('\x1b' ∉ text.toList))

/-- The texts of a line are free of escape characters. -/
def Line.Unescaped (line : Line) : Prop := ∀ span ∈ line, Report.Unescaped span.text

def AllUnescaped (lines : List Line) : Prop := ∀ line ∈ lines, line.Unescaped

theorem Span.unstyled_render {s : Span} (free : Unescaped s.text) (rest : List Char) :
    unstyled (s.render true ++ rest) = s.render false ++ unstyled rest := by
  obtain ⟨style, text⟩ := s
  cases style with
  | none => exact unstyled_append free rest
  | some style =>
      simp only [Span.render, if_true, Bool.false_eq_true, if_false]
      rw [List.append_assoc, List.append_assoc, unstyled_escapeSequence (isCode_codes style),
        restyled_of_free free, unstyled_append free, unstyled_resetSequence]

theorem Line.unstyled_render {line : Line} (free : line.Unescaped)
    (rest : List Char) :
    unstyled (line.render true ++ rest) = line.render false ++ unstyled rest := by
  induction line with
  | nil => exact unstyled_append (by decide) rest
  | cons s line ih =>
      obtain ⟨here, there⟩ := List.forall_mem_cons.mp free
      have split (colours : Bool) :
          Line.render colours (s :: line) = s.render colours ++ Line.render colours line := by
        simp [Line.render]
      rw [split, split, List.append_assoc, Span.unstyled_render here, ih there, List.append_assoc]

/-- Without its escape sequences, a text with colours is the text without colours. -/
theorem withoutSequences_render {lines : List Line} (free : AllUnescaped lines) :
    withoutSequences (render true lines) = render false lines := by
  rw [withoutSequences, render, render, String.toList_ofList]
  congr 1
  induction lines with
  | nil => exact unstyled_nil
  | cons line lines ih =>
      obtain ⟨here, there⟩ := List.forall_mem_cons.mp free
      rw [List.flatMap_cons, List.flatMap_cons, Line.unstyled_render here, ih there]

/-- Without colours no escape sequences are written. -/
theorem unescaped_render {lines : List Line} (free : AllUnescaped lines) :
    Unescaped (render false lines) := by
  rw [Unescaped, render, String.toList_ofList]
  intro member
  obtain ⟨line, member, inside⟩ := List.mem_flatMap.mp member
  rw [Line.render, List.mem_append, List.mem_flatMap] at inside
  obtain ⟨span, within, inside⟩ | last := inside
  · refine free line member span within ?_
    cases style : span.style <;> simpa [Span.render, style] using inside
  · simp at last

/-! ### What the lines of the reports are made of -/

@[simp] theorem unescaped_append {text other : String} :
    Unescaped (text ++ other) ↔ Unescaped text ∧ Unescaped other := by
  simp [Unescaped, not_or]

theorem escape_not_mem_toDigits (n : Nat) : '\x1b' ∉ Nat.toDigits 10 n := by
  intro member
  have digit := Nat.isDigit_of_mem_toDigits (by decide) (by decide) member
  contradiction

@[simp] theorem unescaped_repr (n : Nat) : Unescaped n.repr := by
  rw [Unescaped, Nat.toList_repr]
  exact escape_not_mem_toDigits n

@[simp] theorem unescaped_padded (n : Nat) : Unescaped (padded n) := by
  simp [Unescaped, padded, escape_not_mem_toDigits]

@[simp] theorem unescaped_blanks (n : Nat) :
    Unescaped (String.ofList (List.replicate n ' ')) := by
  simp [Unescaped]

@[simp] theorem unescaped_word (kind : TypeKind) : Unescaped kind.word := by
  cases kind <;> decide

theorem unescaped_commaSeparated {names : List String} (free : ∀ name ∈ names, Unescaped name) :
    Unescaped (commaSeparated names) := by
  induction names with
  | nil => decide
  | cons name rest ih =>
      obtain ⟨here, there⟩ := List.forall_mem_cons.mp free
      cases rest with
      | nil => simpa [commaSeparated] using here
      | cons next rest =>
          rw [commaSeparated, String.intercalate_cons_cons, unescaped_append, unescaped_append]
          exact ⟨⟨here, by decide⟩, ih there⟩

@[simp] theorem Line.unescaped_nil : Line.Unescaped [] := List.forall_mem_nil _

@[simp] theorem Line.unescaped_plain_cons {text : String} {line : Line} :
    Line.Unescaped (plain text :: line) ↔ Report.Unescaped text ∧ line.Unescaped :=
  List.forall_mem_cons

@[simp] theorem Line.unescaped_styled_cons {style : Style} {text : String} {line : Line} :
    Line.Unescaped (styled style text :: line) ↔ Report.Unescaped text ∧ line.Unescaped :=
  List.forall_mem_cons

@[simp] theorem Line.unescaped_indent_cons {depth : Nat} {line : Line} :
    Line.Unescaped (indent depth :: line) ↔ line.Unescaped := by
  rw [indent, unescaped_plain_cons, and_iff_right (unescaped_blanks _)]

/-! ### Closures -/

theorem unescaped_entryLine (depth : Nat) {e : ClosureEntry} (free : Unescaped e.name) :
    (entryLine depth e).Unescaped := by
  have mark : Unescaped (if e.exported then " (exported)" else "") := by
    split <;> decide
  simp +decide [entryLine, free, mark]

theorem unescaped_reexportLine (depth : Nat) {r : Reexport}
    (free : ∀ text ∈ r.writtenTexts, Unescaped text) : (reexportLine depth r).Unescaped := by
  obtain ⟨module, names⟩ := List.forall_mem_cons.mp free
  simp +decide [reexportLine, module, unescaped_commaSeparated names]

theorem unescaped_unresolvedLine (depth : Nat) {module : String} (free : Unescaped module) :
    (unresolvedLine depth module).Unescaped := by
  simp +decide [unresolvedLine, free]

theorem unescaped_namesLine? (depth : Nat) (style : Style) {heading : String} {names : List String}
    (known : Unescaped heading) (free : ∀ name ∈ names, Unescaped name) :
    AllUnescaped (namesLine? depth style heading names) := by
  unfold namesLine?
  split
  · exact List.forall_mem_nil _
  · simp +decide [AllUnescaped, known, unescaped_commaSeparated free]

theorem unescaped_block (depth : Nat) {c : Closure} {unresolved : List String}
    (free : ∀ text ∈ c.writtenTexts ++ unresolved, Unescaped text) :
    AllUnescaped (block depth c unresolved) := by
  simp only [Closure.writtenTexts, List.cons_append, List.forall_mem_cons, List.forall_mem_append,
    List.forall_mem_map, List.forall_mem_flatMap] at free
  obtain ⟨file, ⟨⟨⟨entries, external⟩, reexports⟩, missing⟩, modules⟩ := free
  have heading : Line.Unescaped [indent depth, styled .bold c.file, plain ":"] := by
    simp +decide [file]
  simp only [block, AllUnescaped, List.cons_append, List.forall_mem_cons, List.forall_mem_append,
    List.forall_mem_map]
  refine ⟨heading, ⟨⟨⟨⟨?_, ?_⟩, ?_⟩, ?_⟩, ?_⟩⟩
  · exact fun e member => unescaped_entryLine depth (entries e member)
  · exact unescaped_namesLine? depth .yellow (by decide) external
  · exact fun r member => unescaped_reexportLine depth (reexports r member)
  · exact unescaped_namesLine? depth .red (by decide) missing
  · exact fun module member => unescaped_unresolvedLine depth (modules module member)

theorem unescaped_summary {t : ClosureTree} (free : ∀ text ∈ t.missingRoots, Unescaped text) :
    (summary t).Unescaped := by
  have word (n : Nat) {one many : String} (first : Unescaped one) (second : Unescaped many) :
      Unescaped (plural n one many) := by
    unfold plural
    split <;> assumption
  unfold summary
  dsimp only
  split
  · simp +decide [word]
  · simp +decide [word, unescaped_commaSeparated free]

theorem unescaped_blocks (depth : Nat) {t : ClosureTree}
    (free : ∀ text ∈ t.writtenTexts, Unescaped text) : AllUnescaped (blocks depth t) := by
  rw [ClosureTree.writtenTexts, List.forall_mem_flatMap, ← ClosureTree.map_snd_levels depth,
    List.forall_mem_map] at free
  rw [blocks_eq_flatMap_levels, AllUnescaped, List.forall_mem_flatMap]
  exact fun node member => unescaped_block node.1 (free node member)

theorem unescaped_closureLines {t : ClosureTree} (free : ∀ text ∈ t.writtenTexts, Unescaped text) :
    AllUnescaped (closureLines t) := by
  have missing : ∀ text ∈ t.missingRoots, Unescaped text := by
    rw [ClosureTree.missingRoots_eq, List.forall_mem_flatMap]
    intro node member text inside
    refine free text (List.mem_flatMap.mpr ⟨node, member, ?_⟩)
    simp [Closure.writtenTexts, inside]
  rw [closureLines, AllUnescaped, List.forall_mem_append, List.forall_mem_singleton]
  exact ⟨unescaped_blocks 0 free, unescaped_summary missing⟩

/-! ### Listings -/

theorem unescaped_mentionsLine {d : ListedDeclaration}
    (free : ∀ text ∈ d.writtenTexts, Unescaped text) : (mentionsLine d).Unescaped := by
  obtain ⟨name, mentions⟩ := List.forall_mem_cons.mp free
  simp +decide [mentionsLine, name, unescaped_commaSeparated mentions]

theorem unescaped_namesLines {ls : List Listing}
    (free : ∀ l ∈ ls, ∀ text ∈ l.writtenTexts, Unescaped text) : AllUnescaped (namesLines ls) := by
  rw [namesLines, AllUnescaped, List.forall_mem_flatMap]
  intro l member
  have texts := free l member
  simp only [Listing.writtenTexts, List.cons_append, List.forall_mem_cons, List.forall_mem_append,
    List.forall_mem_flatMap] at texts
  obtain ⟨file, declarations, reexports⟩ := texts
  have heading : Line.Unescaped [styled .bold l.file, plain ":"] := by
    simp +decide [file]
  simp only [listingLines, List.cons_append, List.forall_mem_cons, List.forall_mem_append,
    List.forall_mem_map]
  exact ⟨heading, fun d within => unescaped_mentionsLine (declarations d within),
    fun r within => unescaped_reexportLine 0 (reexports r within)⟩

theorem unescaped_failureLines (failed : Nat) (verbose : Bool) :
    AllUnescaped (failureLines failed verbose) := by
  unfold failureLines
  split
  · exact List.forall_mem_nil _
  · simp +decide [AllUnescaped]

end Report

open Report

/-- Colours are presentation only. Where no text of a closure tree or of some listings holds an escape
character, what is written of them with colours becomes what is written of them without, if all escape
sequences are left out, with the same indentation, the same blanks in front of line numbers, and the
same marks of exported declarations. The same holds of the warning about files that could not be read,
whatever their number. Without colours there is no escape sequence. -/
theorem colours_only_add_sequences :
    (∀ t : ClosureTree, (∀ text ∈ t.writtenTexts, Unescaped text) →
      withoutSequences (render true (closureLines t)) = render false (closureLines t) ∧
        Unescaped (render false (closureLines t))) ∧
    (∀ ls : List Listing, (∀ l ∈ ls, ∀ text ∈ l.writtenTexts, Unescaped text) →
      withoutSequences (render true (namesLines ls)) = render false (namesLines ls) ∧
        Unescaped (render false (namesLines ls))) ∧
    ∀ failed verbose,
      withoutSequences (render true (failureLines failed verbose)) =
        render false (failureLines failed verbose) ∧
      Unescaped (render false (failureLines failed verbose)) := by
  refine ⟨?_, ?_, ?_⟩
  · intro t free
    have lines := unescaped_closureLines free
    exact ⟨withoutSequences_render lines, unescaped_render lines⟩
  · intro ls free
    have lines := unescaped_namesLines free
    exact ⟨withoutSequences_render lines, unescaped_render lines⟩
  · intro failed verbose
    have lines := unescaped_failureLines failed verbose
    exact ⟨withoutSequences_render lines, unescaped_render lines⟩

/-- Types with some of their roles in another file. -/
def rolesTree : ClosureTree :=
  .node
    { file := "types.ts", roots := ["User"]
      declarations := [⟨"User", .interface, 3, true⟩, ⟨"Tag", .enumeration, 12, false⟩]
      external := ["Date"], reexports := [⟨"./roles", [⟨"Role", "Role"⟩]⟩] }
    ["./gone"]
    [.node { file := "./roles.ts", roots := ["Role"]
             declarations := [⟨"Role", .typeAlias, 1, true⟩] } [] []]

def rolesListing : Listing :=
  ⟨"a.ts", [⟨"A", .interface, 1, ["A", "A", "B"]⟩], [⟨"./b", [⟨"B", "C"⟩]⟩]⟩

theorem colours_only_add_sequences_roles :
    withoutSequences (render true (closureLines rolesTree)) =
      "types.ts:\n     3  interface User (exported)\n    12  enum Tag\n  external: Date\n" ++
      "  from ./roles: Role\n  warning: cannot resolve module ./gone\n" ++
      "  ./roles.ts:\n       1  type Role (exported)\n" ++
      "\u2713 Collected 3 declarations from 2 files\n" ∧
    withoutSequences (render true (namesLines [rolesListing])) =
      "a.ts:\n     1  interface A: A, A, B\n  from ./b: B\n" ∧
    withoutSequences (render true (failureLines 2 false)) =
      "warning: 2 file(s) could not be parsed (use -v for details)\n" := by
  obtain ⟨tree, listings, warning⟩ := colours_only_add_sequences
  refine ⟨(tree rolesTree ?_).1.trans (by decide +kernel),
    (listings [rolesListing] ?_).1.trans (by decide +kernel),
    (warning 2 false).1.trans (by decide +kernel)⟩
  · decide +kernel
  · decide +kernel

end TypeClosure

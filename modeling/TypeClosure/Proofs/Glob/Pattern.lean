import TypeClosure.Glob.Pattern

/-!
What reading a text as a pattern says of the text. Without brackets a pattern matches the text that
it is; a pattern of one component is recursive only if it is `**`.
-/

namespace TypeClosure.Glob

/-! ### Texts that are read -/

/-- The tokens of a text behind a character, wherever it stands. -/
inductive Reads : Option Char → List Char → List Token → Prop
  | nil {previous : Option Char} : Reads previous [] []
  | anyChar {previous : Option Char} {rest : List Char} {ts : List Token} :
      Reads (some '?') rest ts → Reads previous ('?' :: rest) (.anyChar :: ts)
  | anyText {previous : Option Char} {rest : List Char} {ts : List Token} :
      Reads (some '*') rest ts → Reads previous ('*' :: rest) (.anyText :: ts)
  | anyPathAtEnd {previous : Option Char} : previous = none ∨ previous = some '/' →
      Reads previous ['*', '*'] [.anyPath]
  | anyPath {previous : Option Char} {rest : List Char} {ts : List Token} :
      previous = none ∨ previous = some '/' → Reads (some '/') rest ts →
      Reads previous ('*' :: '*' :: '/' :: rest) (.anyPath :: ts)
  | except {previous : Option Char} {body rest : List Char} {ts : List Token} :
      Reads (some ']') rest ts →
      Reads previous ('[' :: '!' :: (body ++ ']' :: rest)) (.except (ranges body) :: ts)
  | within {previous : Option Char} {body rest : List Char} {ts : List Token} :
      Reads (some ']') rest ts →
      Reads previous ('[' :: (body ++ ']' :: rest)) (.within (ranges body) :: ts)
  | literal {previous : Option Char} {c : Char} {rest : List Char} {ts : List Token} :
      c ≠ '[' → Reads (some c) rest ts → Reads previous (c :: rest) (.literal c :: ts)

theorem eq_of_splitAt? {c : Char} {cs before after : List Char}
    (split : splitAt? c cs = some (before, after)) : cs = before ++ c :: after := by
  induction cs generalizing before with
  | nil => cases split
  | cons d rest ih =>
      unfold splitAt? at split
      split at split
      · next same =>
          cases split
          rw [same, List.nil_append]
      · obtain ⟨⟨b, a⟩, later, eq⟩ := Option.map_eq_some_iff.mp split
        cases eq
        rw [ih later, List.cons_append]

theorem eq_of_bracketed? {cs body after : List Char}
    (closed : bracketed? cs = some (body, after)) : cs = body ++ ']' :: after := by
  cases cs with
  | nil => cases closed
  | cons first rest =>
      obtain ⟨⟨b, a⟩, split, eq⟩ := Option.map_eq_some_iff.mp closed
      cases eq
      rw [eq_of_splitAt? split, List.cons_append]

theorem map_cons_eq_ok {ε α : Type} {x : α} {run : Except ε (List α)} {ys : List α}
    (eq : (x :: ·) <$> run = .ok ys) : ∃ xs, run = .ok xs ∧ ys = x :: xs := by
  cases run with
  | error fault => cases eq
  | ok xs =>
      cases eq
      exact ⟨xs, rfl, rfl⟩

theorem reads_of_tokens {previous : Option Char} {position : Nat} {cs : List Char}
    {ts : List Token} (read : tokens previous position cs = .ok ts) : Reads previous cs ts := by
  fun_induction tokens previous position cs generalizing ts with
  | case1 =>
      cases read
      exact .nil
  | case2 previous position rest ih =>
      obtain ⟨ts, inner, rfl⟩ := map_cons_eq_ok read
      exact .anyChar (ih inner)
  | case4 previous position alone =>
      cases read
      exact .anyPathAtEnd alone
  | case5 previous position alone rest _ ih =>
      obtain ⟨ts, inner, rfl⟩ := map_cons_eq_ok read
      exact .anyPath alone (ih inner)
  | case8 previous position rest _ _ ih =>
      obtain ⟨ts, inner, rfl⟩ := map_cons_eq_ok read
      exact .anyText (ih inner)
  | case9 previous position rest body after closed ih =>
      obtain ⟨ts, inner, rfl⟩ := map_cons_eq_ok read
      rw [eq_of_bracketed? closed]
      exact .except (ih inner)
  | case11 previous position rest _ body after closed ih =>
      obtain ⟨ts, inner, rfl⟩ := map_cons_eq_ok read
      rw [eq_of_bracketed? closed]
      exact .within (ih inner)
  | case13 previous position c rest _ _ _ _ _ notBracket ih =>
      obtain ⟨ts, inner, rfl⟩ := map_cons_eq_ok read
      exact .literal notBracket (ih inner)
  | case3 | case6 | case7 | case10 | case12 => cases read

/-! ### Patterns that match themselves -/

theorem matchesChars_of_mem_suffixes {ts : List Token} {cs rest : List Char}
    (suffix : rest ∈ suffixes cs) (rests : matchesChars ts rest = true) :
    matchesChars (.anyText :: ts) cs = true := by
  rw [matchesChars]
  exact List.any_eq_true.mpr ⟨rest, suffix, rests⟩

theorem self_mem_suffixes (cs : List Char) : cs ∈ suffixes cs := by
  cases cs with
  | nil => exact List.mem_singleton_self _
  | cons c cs => exact List.mem_cons_self

/-- Without brackets, each token matches the character that it is read from. -/
theorem Reads.matchesChars {previous : Option Char} {cs : List Char} {ts : List Token}
    (reads : Reads previous cs ts) (plain : '[' ∉ cs) : Glob.matchesChars ts cs = true := by
  induction reads with
  | nil => rfl
  | anyChar _ ih =>
      rw [Glob.matchesChars]
      exact ih fun member => plain (List.mem_cons_of_mem _ member)
  | @anyText _ rest _ _ ih =>
      have rests := ih fun member => plain (List.mem_cons_of_mem _ member)
      exact matchesChars_of_mem_suffixes (List.mem_cons_of_mem _ (self_mem_suffixes rest)) rests
  | anyPathAtEnd => decide
  | @anyPath _ rest _ _ _ ih =>
      rw [Glob.matchesChars]
      refine List.any_eq_true.mpr ⟨rest, by simp [behindSlashes], ih fun member => plain ?_⟩
      simp [member]
  | except => exact absurd List.mem_cons_self plain
  | within => exact absurd List.mem_cons_self plain
  | literal _ _ ih =>
      rw [Glob.matchesChars, beq_self_eq_true, Bool.true_and]
      exact ih fun member => plain (List.mem_cons_of_mem _ member)

/-- Brackets are no literal tokens. -/
theorem Reads.not_bracket_of_literal {previous : Option Char} {cs : List Char} {ts : List Token}
    (reads : Reads previous cs ts) (literal : ∀ token ∈ ts, ∃ c, token = .literal c) :
    '[' ∉ cs := by
  induction reads with
  | nil => exact List.not_mem_nil
  | literal notBracket _ ih =>
      intro member
      rcases List.mem_cons.mp member with same | member
      · exact notBracket same.symm
      · exact ih (fun token inside => literal token (List.mem_cons_of_mem _ inside)) member
  | anyChar | anyText | anyPathAtEnd | anyPath | except | within =>
      obtain ⟨c, same⟩ := literal _ List.mem_cons_self
      cases same

/-- A text without slashes that holds a component `**` is nothing but that. -/
theorem Reads.eq_of_anyPath {previous : Option Char} {cs : List Char} {ts : List Token}
    (reads : Reads previous cs ts) (inside : previous ≠ some '/') (noSlash : '/' ∉ cs)
    (member : Token.anyPath ∈ ts) : previous = none ∧ cs = ['*', '*'] := by
  induction reads with
  | nil => exact absurd member List.not_mem_nil
  | anyPathAtEnd alone => exact ⟨alone.resolve_right inside, rfl⟩
  | anyPath => exact absurd (by simp) noSlash
  | anyChar _ ih | anyText _ ih =>
      have ⟨behind, _⟩ := ih (by decide)
        (fun slash => noSlash (List.mem_cons_of_mem _ slash)) (by simpa using member)
      cases behind
  | except _ ih | within _ ih =>
      have ⟨behind, _⟩ := ih (by decide)
        (fun slash => noSlash (by simp [slash])) (by simpa using member)
      cases behind
  | @literal _ c _ _ _ _ ih =>
      have notSlash : c ≠ '/' := fun same => noSlash (by simp [same])
      have ⟨behind, _⟩ := ih (fun same => notSlash (Option.some.inj same))
        (fun slash => noSlash (List.mem_cons_of_mem _ slash)) (by simpa using member)
      cases behind

namespace Pattern

variable {text : String} {p : Pattern}

theorem read_eq_ok (read : Pattern.read text = .ok p) :
    p.text = text ∧ Reads none text.toList p.tokens := by
  unfold Pattern.read at read
  cases tokenized : Glob.tokens none 0 text.toList with
  | error fault =>
      rw [tokenized] at read
      cases read
  | ok ts =>
      rw [tokenized] at read
      cases read
      exact ⟨rfl, reads_of_tokens tokenized⟩

theorem matches_self (read : Pattern.read text = .ok p) (plain : '[' ∉ text.toList) :
    p.matches text = true := (read_eq_ok read).2.matchesChars plain

theorem matches_self_of_isLiteral (read : Pattern.read text = .ok p)
    (isLiteral : p.isLiteral = true) : p.matches text = true := by
  refine matches_self read ((read_eq_ok read).2.not_bracket_of_literal fun token member => ?_)
  have literal := List.all_eq_true.mp isLiteral token member
  cases token with
  | literal c => exact ⟨c, rfl⟩
  | _ => cases literal

/-- Among components only `**` is recursive. -/
theorem isRecursive_iff (read : Pattern.read text = .ok p) (noSlash : '/' ∉ text.toList) :
    p.isRecursive = true ↔ text = "**" := by
  constructor
  · intro recursive
    have member := List.contains_iff_mem.mp recursive
    have ⟨_, whole⟩ := (read_eq_ok read).2.eq_of_anyPath (by decide) noSlash member
    exact String.toList_injective whole
  · rintro rfl
    have parsed : Pattern.read "**" = .ok ⟨"**", [.anyPath]⟩ := by cbv
    cases parsed.symm.trans read
    rfl

theorem isLiteral_of_isRecursive (recursive : p.isRecursive = true) : p.isLiteral = false := by
  rw [← Bool.not_eq_true]
  intro literal
  exact Bool.false_ne_true (List.all_eq_true.mp literal _ (List.contains_iff_mem.mp recursive))

end Pattern

end TypeClosure.Glob

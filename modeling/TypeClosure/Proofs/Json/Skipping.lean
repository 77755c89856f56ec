import TypeClosure.Proofs.Json.Reading

/-!
Going past JSON values that are not wanted. Any text of any value is gone past, however deep the value
is: from a value inside others the reader comes to the place behind it, with the same values open.
-/

namespace TypeClosure.Json.Reader

variable {t t' r cs : List Char} {c : Char}

/-! ### Strings that are not wanted -/

theorem skipEscape_short {letter : Char} (known : (letter, c) ∈ shortEscapes) (r : List Char) :
    skipEscape.run (letter :: r) = .ok ((), r) := by
  rw [skipEscape, run_bind_of_ok (next_cons letter r), plainEscape?_of_mem known]
  rfl

theorem skipEscape_code {n : Nat} (code : HexCode cs n) (r : List Char) :
    skipEscape.run ('u' :: (cs ++ r)) = .ok ((), r) := by
  rw [skipEscape, run_bind_of_ok (next_cons 'u' _), if_pos (by decide), if_pos rfl,
    run_bind_of_ok (hexEscape_append code r)]
  rfl

theorem skipStringUpTo_of_escape {n : Nat} (read : skipEscape.run t = .ok ((), t')) :
    (skipStringUpTo (n + 1)).run ('\\' :: t) = (skipStringUpTo n).run t' := by
  rw [skipStringUpTo, run_bind_of_ok (next_cons _ _), if_neg (by decide), if_pos rfl,
    run_bind_of_ok read]

theorem skipStringUpTo_of_content (content : Content t cs r) {n : Nat} (enough : t.length < n) :
    (skipStringUpTo n).run t = .ok ((), r) := by
  induction content generalizing n with
  | close =>
      obtain ⟨n, rfl⟩ := Nat.exists_eq_add_of_lt enough
      rw [skipStringUpTo, run_bind_of_ok (next_cons _ _), if_pos rfl]
      rfl
  | plain notQuote notBackslash visible _ ih =>
      obtain ⟨n, rfl⟩ := Nat.exists_eq_add_of_lt enough
      rw [skipStringUpTo, run_bind_of_ok (next_cons _ _), if_neg notQuote, if_neg notBackslash,
        if_neg (Nat.not_lt.mpr visible), ih (by simp; omega)]
  | short known _ ih =>
      obtain ⟨n, rfl⟩ := Nat.exists_eq_add_of_lt enough
      rw [skipStringUpTo_of_escape (skipEscape_short known _), ih (by simp; omega)]
  | code code _ ih =>
      obtain ⟨n, rfl⟩ := Nat.exists_eq_add_of_lt enough
      rw [skipStringUpTo_of_escape (skipEscape_code code _), ih (by simp; omega)]
  | pair code partner _ _ _ _ _ _ ih =>
      -- Each of the two surrogates is gone past by itself.
      simp only [List.length_cons, List.length_append] at enough
      obtain ⟨n, rfl⟩ : ∃ m, n = m + 2 := ⟨n - 2, by omega⟩
      rw [skipStringUpTo_of_escape (skipEscape_code code _),
        skipStringUpTo_of_escape (skipEscape_code partner _), ih (by omega)]

theorem skipStringBody_of_content (content : Content t cs r) :
    skipStringBody.run t = .ok ((), r) := by
  rw [skipStringBody, run_bind_of_ok (get_run t),
    skipStringUpTo_of_content content (Nat.lt_succ_self _)]

/-! ### Numbers -/

/-- What may stand behind a value inside others. -/
def Ended (r : List Char) : Prop := ∀ c ∈ r.head?, c ∈ separators

theorem ended_of_blank {close : Char} (blank : Blank r (close :: t))
    (closing : close ∈ [',', ']', '\x7d']) : Ended r := by
  generalize rest : close :: t = t' at blank
  cases blank with
  | nothing =>
      rw [← rest]
      rintro c ⟨⟩
      exact List.mem_append_right [' ', '\n', '\t', '\r'] closing
  | more space _ =>
      rintro c ⟨⟩
      exact List.mem_append_left [',', ']', '\x7d'] space

theorem peek?_run (t : List Char) : peek?.run t = .ok (t.head?, t) := rfl

theorem digits_append {ds : List Char} (all : ∀ d ∈ ds, d.isDigit = true)
    (stop : ∀ c ∈ r.head?, c.isDigit = false) : digits.run (ds ++ r) = .ok (ds, r) := by
  have front : r.takeWhile Char.isDigit = [] ∧ r.dropWhile Char.isDigit = r := by
    cases r with
    | nil => exact ⟨rfl, rfl⟩
    | cons c r => simp [stop c rfl]
  change Except.ok ((ds ++ r).takeWhile Char.isDigit, (ds ++ r).dropWhile Char.isDigit) = _
  rw [List.takeWhile_append_of_pos all, List.dropWhile_append_of_pos all, front.1, front.2,
    List.append_nil]

theorem someDigits_append (missing : Fault) {ds : List Char} (written : Digits ds)
    (stop : ∀ c ∈ r.head?, c.isDigit = false) :
    (someDigits missing).run (ds ++ r) = .ok (ds, r) := by
  rw [someDigits, run_bind_of_ok (digits_append written.isDigit stop)]
  split
  · exact absurd rfl written.ne_nil
  · rfl

theorem head?_digits_append {ds : List Char} (written : Digits ds) (r : List Char) :
    ∃ d, (ds ++ r).head? = some d ∧ d.isDigit = true := by
  cases ds with
  | nil => exact absurd rfl written.ne_nil
  | cons d ds => exact ⟨d, rfl, written.isDigit d List.mem_cons_self⟩

theorem exists_exponent_run (missing : Fault) {sign ds : List Char}
    (signed : sign ∈ [[], ['+'], ['-']]) (written : Digits ds)
    (stop : ∀ c ∈ r.head?, c.isDigit = false) :
    ∃ e, (exponent missing).run (sign ++ (ds ++ r)) = .ok (e, r) := by
  have read := someDigits_append missing written stop
  have sign_cases : sign = [] ∨
      ∃ mark, sign = [mark] ∧ (some mark == some '+' || some mark == some '-') = true := by
    simp only [List.mem_cons, List.not_mem_nil, or_false] at signed
    obtain rfl | rfl | rfl := signed
    · exact .inl rfl
    · exact .inr ⟨_, rfl, rfl⟩
    · exact .inr ⟨_, rfl, rfl⟩
  obtain rfl | ⟨mark, rfl, isSign⟩ := sign_cases
  · obtain ⟨d, first, digit⟩ := head?_digits_append written r
    have unsigned : ¬ (some d == some '+' || some d == some '-') = true := by
      rintro isSign
      simp only [Bool.or_eq_true, beq_iff_eq, Option.some.injEq] at isSign
      obtain rfl | rfl := isSign <;> contradiction
    rw [exponent, List.nil_append, run_bind_of_ok (peek?_run _), first]
    dsimp only
    rw [if_neg unsigned, run_bind_of_ok read]
    exact ⟨_, rfl⟩
  · rw [exponent, List.singleton_append, run_bind_of_ok (peek?_run _), List.head?_cons]
    dsimp only
    rw [if_pos isSign, run_bind_of_ok (skip_cons _ _), run_bind_of_ok read]
    exact ⟨_, rfl⟩

theorem behind_of_ended (ended : Ended r) :
    ∀ c ∈ r.head?, c.isDigit = false ∧ c ≠ '.' ∧ c ≠ 'e' ∧ c ≠ 'E' := by
  have all : ∀ c ∈ separators, c.isDigit = false ∧ c ≠ '.' ∧ c ≠ 'e' ∧ c ≠ 'E' := by
    simp [separators]
  exact fun c first => all c (ended c first)

theorem behind_of_exponent (written : Exponent cs) (ended : Ended r) :
    ∀ c ∈ (cs ++ r).head?, c.isDigit = false ∧ c ≠ '.' := by
  cases written with
  | none =>
      intro c first
      obtain ⟨notDigit, notPoint, -⟩ := behind_of_ended ended c first
      exact ⟨notDigit, notPoint⟩
  | some letter _ _ =>
      have all : ∀ c ∈ ['e', 'E'], c.isDigit = false ∧ c ≠ '.' := by simp
      rintro c ⟨⟩
      exact all _ letter

/-- What follows the fraction of a number is read: an exponent, or nothing. -/
theorem exists_scaled_run (missing : Fault) (value : Nat) (scale : Int) (written : Exponent cs)
    (ended : Ended r) :
    ∃ v, (do
      let letter ← peek?
      if letter == some 'e' || letter == some 'E' then
        skip
        return (value, scale + (← exponent missing))
      else return (value, scale) : Reader (Nat × Int)).run (cs ++ r) = .ok (v, r) := by
  cases written with
  | none =>
      have noLetter : ¬ (r.head? == some 'e' || r.head? == some 'E') = true := by
        intro isLetter
        simp only [Bool.or_eq_true, beq_iff_eq] at isLetter
        obtain first | first := isLetter
        · exact (behind_of_ended ended _ first).2.2.1 rfl
        · exact (behind_of_ended ended _ first).2.2.2 rfl
      rw [List.nil_append, run_bind_of_ok (peek?_run _), if_neg noLetter]
      exact ⟨_, rfl⟩
  | @some letter sign ds known signed digits =>
      have isLetter : (some letter == some 'e' || some letter == some 'E') = true := by
        have all : ∀ c ∈ ['e', 'E'], (some c == some 'e' || some c == some 'E') = true := by
          simp
        exact all letter known
      obtain ⟨e, read⟩ := exists_exponent_run missing signed digits
        fun c first => (behind_of_ended ended c first).1
      rw [List.cons_append, List.append_assoc, run_bind_of_ok (peek?_run _), List.head?_cons,
        if_pos isLetter, run_bind_of_ok (skip_cons _ _), run_bind_of_ok read]
      exact ⟨_, rfl⟩

/-- A number without its sign is read, whatever its value. -/
theorem exists_number_run (missing : Fault) (magnitude : Magnitude cs) (ended : Ended r) :
    ∃ v, (number missing).run (cs ++ r) = .ok (v, r) := by
  obtain @⟨whole, fraction, exponent, isWhole, isFraction, isExponent⟩ := magnitude
  have behind := behind_of_exponent isExponent ended
  have behindWhole : ∀ c ∈ (fraction ++ (exponent ++ r)).head?, c.isDigit = false := by
    cases isFraction with
    | none => exact fun c first => (behind c first).1
    | some _ =>
        rintro c ⟨⟩
        rfl
  have single : ¬ (whole.head? == some '0' && whole.length != 1) = true := by
    intro leading
    simp only [Bool.and_eq_true, beq_iff_eq, bne_iff_ne] at leading
    exact leading.2 (congrArg List.length (isWhole.zero_alone leading.1))
  rw [number, List.append_assoc, List.append_assoc,
    run_bind_of_ok (someDigits_append missing isWhole.toDigits behindWhole)]
  dsimp only
  rw [if_neg single]
  cases isFraction with
  | none =>
      have noPoint : ¬ ((exponent ++ r).head? == some '.') = true := by
        intro isPoint
        exact (behind _ (beq_iff_eq.mp isPoint)).2 rfl
      rw [List.nil_append, run_bind_of_ok (peek?_run _), if_neg noPoint]
      exact exists_scaled_run missing _ _ isExponent ended
  | some digits =>
      rw [List.cons_append, run_bind_of_ok (peek?_run _), List.head?_cons, if_pos (by decide),
        run_bind_of_ok (skip_cons _ _),
        run_bind_of_ok (someDigits_append missing digits fun c first => (behind c first).1)]
      exact exists_scaled_run missing _ _ isExponent ended

/-! ### Values that are not wanted -/

theorem start_congr (blank : Blank t t') : start.run t = start.run t' := by
  have peeked : peekBehindSpace?.run t = peekBehindSpace?.run t' := by
    change Except.ok ((t.dropWhile isSpace).head?, t.dropWhile isSpace) = _
    rw [dropWhile_isSpace_congr blank]
    rfl
  exact run_bind_congr peeked _

/-- The mark that opens a value. -/
def Frame.opening : Frame → Char
  | .array => '['
  | .object => '\x7b'

/-- Goes on behind a value. -/
def resume (n : Nat) (frames : List Frame) : Reader Unit := do
  skipUpTo.finish n (← closeFrames frames)

theorem resume_close {n : Nat} (frame : Frame) {outer : List Frame}
    (blank : Blank t (frame.close :: r)) :
    (resume n (frame :: outer)).run t = (resume n outer).run r := by
  have mark : isSpace frame.close = false ∧ (frame.close == ',') = false := by
    cases frame <;> decide
  rw [resume, closeFrames, bind_assoc, run_bind_of_ok (start_of_blank blank mark.1), mark.2,
    if_neg Bool.false_ne_true, if_pos (beq_self_eq_true _), bind_assoc,
    run_bind_of_ok (skip_cons _ _)]
  rfl

theorem resume_comma {n : Nat} {frame : Frame} {outer : List Frame} (blank : Blank t (',' :: r)) :
    (resume n (frame :: outer)).run t =
      (do skipKey frame; skipUpTo n (frame :: outer) : Reader Unit).run r := by
  rw [resume, closeFrames, bind_assoc, run_bind_of_ok (start_of_blank blank rfl),
    if_pos (by decide), bind_assoc, run_bind_of_ok (skip_cons _ _), bind_assoc]
  simp only [pure_bind, skipUpTo.finish]

theorem skipUpTo_congr {n : Nat} {frames : List Frame} (blank : Blank t t') :
    (skipUpTo n frames).run t = (skipUpTo n frames).run t' := by
  cases n with
  | zero =>
      rw [skipUpTo]
      rfl
  | succ n =>
      rw [skipUpTo]
      exact run_bind_congr (start_congr blank) _

/-! The first steps at a value inside others: one without parts is taken, one with parts is opened. -/

section

variable {n : Nat} {outer : List Frame}

theorem skipUpTo_word (word : String) (known : word ∈ ["null", "true", "false"])
    (blank : Blank t (word.toList ++ r)) :
    (skipUpTo (n + 1) outer).run t = (resume n outer).run r := by
  simp only [List.mem_cons, List.not_mem_nil, or_false] at known
  obtain rfl | rfl | rfl := known
  · rw [skipUpTo, run_bind_of_ok (start_of_blank blank rfl)]
    exact run_bind_of_ok (word_append "null".toList r) _
  · rw [skipUpTo, run_bind_of_ok (start_of_blank blank rfl)]
    exact run_bind_of_ok (word_append "true".toList r) _
  · rw [skipUpTo, run_bind_of_ok (start_of_blank blank rfl)]
    exact run_bind_of_ok (word_append "false".toList r) _

theorem skipUpTo_string (blank : Blank t ('"' :: t')) (content : Content t' cs r) :
    (skipUpTo (n + 1) outer).run t = (resume n outer).run r := by
  rw [skipUpTo, run_bind_of_ok (start_of_blank blank rfl)]
  exact (run_bind_of_ok (skip_cons _ _) _).trans
    (run_bind_of_ok (skipStringBody_of_content content) _)

theorem skipUpTo_number (blank : Blank t (cs ++ r)) (literal : Literal cs) (ended : Ended r) :
    (skipUpTo (n + 1) outer).run t = (resume n outer).run r := by
  cases literal with
  | negative magnitude =>
      obtain ⟨v, read⟩ := exists_number_run .syntaxError magnitude ended
      rw [skipUpTo, run_bind_of_ok (start_of_blank blank rfl)]
      exact (run_bind_of_ok (skip_cons _ _) _).trans (run_bind_of_ok read _)
  | positive magnitude =>
      obtain ⟨v, read⟩ := exists_number_run .syntaxError magnitude ended
      obtain ⟨d, others, rfl, digit⟩ := magnitude.exists_digit
      have other {e : Char} (mark : e.isDigit = false) : (d == e) = false :=
        beq_false_of_ne fun same => by rw [same, mark] at digit; contradiction
      have space : isSpace d = false := by
        simp only [isSpace, other (e := ' ') rfl, other (e := '\n') rfl, other (e := '\t') rfl,
          other (e := '\r') rfl, Bool.or_self]
      rw [skipUpTo, run_bind_of_ok (start_of_blank blank space)]
      simp only [other (e := '[') rfl, other (e := '\x7b') rfl, other (e := 'n') rfl,
        other (e := 't') rfl, other (e := 'f') rfl, other (e := '"') rfl, other (e := '-') rfl,
        digit, Bool.or_true, Bool.false_eq_true, if_false, if_true]
      exact run_bind_of_ok read _

theorem skipUpTo_opening (frame : Frame) (blank : Blank t (frame.opening :: t')) :
    (skipUpTo (n + 1) outer).run t =
      (do
        if (← start) == frame.close then
          skip
          resume n outer
        else
          skipKey frame
          skipUpTo n (frame :: outer) : Reader Unit).run t' := by
  have space : isSpace frame.opening = false := by
    cases frame <;> rfl
  rw [skipUpTo, run_bind_of_ok (start_of_blank blank space)]
  cases frame with
  | array => exact run_bind_of_ok (skip_cons _ _) _
  | object => exact run_bind_of_ok (skip_cons _ _) _

theorem skipUpTo_empty (frame : Frame) (blank : Blank t (frame.opening :: t'))
    (closing : Blank t' (frame.close :: r)) :
    (skipUpTo (n + 1) outer).run t = (resume n outer).run r := by
  have space : isSpace frame.close = false := by
    cases frame <;> rfl
  rw [skipUpTo_opening frame blank, run_bind_of_ok (start_of_blank closing space),
    if_pos (beq_self_eq_true _), run_bind_of_ok (skip_cons _ _)]

theorem skipUpTo_filled (frame : Frame) {first : Char} (blank : Blank t (frame.opening :: t'))
    (inside : Blank t' (first :: r)) (mark : isSpace first = false) (filled : first ≠ frame.close) :
    (skipUpTo (n + 1) outer).run t =
      (do skipKey frame; skipUpTo n (frame :: outer) : Reader Unit).run t' := by
  have different : ¬ (first == frame.close) = true := by
    rwa [beq_iff_eq]
  have keyed : (do skipKey frame; skipUpTo n (frame :: outer) : Reader Unit).run t' =
      (do skipKey frame; skipUpTo n (frame :: outer) : Reader Unit).run (first :: r) := by
    cases frame with
    | array => exact skipUpTo_congr inside
    | object => exact run_bind_congr (run_bind_congr (run_bind_congr (start_congr inside) _) _) _
  rw [skipUpTo_opening frame blank, run_bind_of_ok (start_of_blank inside mark), if_neg different,
    keyed]

end

theorem ne_close_of_starts (frame : Frame) {first : Char} (starts : first ∉ separators) :
    first ≠ frame.close := by
  rintro rfl
  cases frame <;> exact starts (by decide)

/-! Then all of it, with a bound on the steps that only has to exceed what is left of the text. -/

theorem skipKey_of_name {name : String} (named : Name t name r) :
    (skipKey .object).run t = .ok ((), r) := by
  obtain ⟨quote, content, colon⟩ := named
  rw [skipKey, run_bind_of_ok (expect_of_blank quote rfl),
    run_bind_of_ok (skipStringBody_of_content content), expect_of_blank colon rfl]

mutual
theorem skipUpTo_of_writes {t₀ t r : List Char} {d : Datum} {n : Nat} (outer : List Frame) :
    Writes t d r → Blank t₀ t → Ended r → t₀.length < n →
    ∃ m, r.length < m ∧ (skipUpTo n outer).run t₀ = (resume m outer).run r := by
  intro written blank ended enough
  obtain ⟨n, rfl⟩ : ∃ m, n = m + 1 := ⟨n - 1, by omega⟩
  have shorter := written.length_lt
  have front := blank.length_le
  cases written with
  | null => exact ⟨n, by omega, skipUpTo_word "null" (by decide) blank⟩
  | yes => exact ⟨n, by omega, skipUpTo_word "true" (by decide) blank⟩
  | no => exact ⟨n, by omega, skipUpTo_word "false" (by decide) blank⟩
  | number literal => exact ⟨n, by omega, skipUpTo_number blank literal ended⟩
  | string content => exact ⟨n, by omega, skipUpTo_string blank content⟩
  | noElements closing => exact ⟨n, by omega, skipUpTo_empty .array blank closing⟩
  | noMembers closing => exact ⟨n, by omega, skipUpTo_empty .object blank closing⟩
  | elements written =>
      rw [List.length_cons] at front
      obtain ⟨first, _, inside, starts⟩ := written.exists_first
      obtain ⟨m, left, ran⟩ := skipUpTo_of_elements (n := n) outer written (by omega)
      exact ⟨m, left, (skipUpTo_filled .array blank inside (isSpace_of_starts starts)
        (ne_close_of_starts .array starts)).trans ran⟩
  | members written =>
      rw [List.length_cons] at front
      obtain ⟨_, inside⟩ := written.exists_quote
      obtain ⟨m, left, ran⟩ := skipUpTo_of_members (n := n) outer written (by omega)
      exact ⟨m, left, (skipUpTo_filled .object blank inside rfl (by decide)).trans ran⟩

theorem skipUpTo_of_elements {t r : List Char} {ds : List Datum} {n : Nat} (outer : List Frame) :
    WritesElements t ds r → t.length < n →
    ∃ m, r.length < m ∧ (skipUpTo n (.array :: outer)).run t = (resume m outer).run r
  | .last front written back, enough => by
      obtain ⟨m, left, ran⟩ :=
        skipUpTo_of_writes (.array :: outer) written front (ended_of_blank back (by decide)) enough
      have shorter := back.length_le
      rw [List.length_cons] at shorter
      exact ⟨m, by omega, ran.trans (resume_close .array back)⟩
  | .cons front written back others, enough => by
      obtain ⟨m, left, ran⟩ :=
        skipUpTo_of_writes (.array :: outer) written front (ended_of_blank back (by decide)) enough
      have shorter := back.length_le
      rw [List.length_cons] at shorter
      obtain ⟨k, below, went⟩ := skipUpTo_of_elements (n := m) outer others (by omega)
      exact ⟨k, below, ran.trans ((resume_comma back).trans went)⟩

theorem skipUpTo_of_members {t r : List Char} {ms : List (String × Datum)} {n : Nat}
    (outer : List Frame) :
    WritesMembers t ms r → t.length < n →
    ∃ m, r.length < m ∧
      (do skipKey .object; skipUpTo n (.object :: outer) : Reader Unit).run t =
        (resume m outer).run r
  | .last named front written back, enough => by
      have behind := named.length_lt
      obtain ⟨m, left, ran⟩ := skipUpTo_of_writes (n := n) (.object :: outer) written front
        (ended_of_blank back (by decide)) (by omega)
      have shorter := back.length_le
      rw [List.length_cons] at shorter
      refine ⟨m, by omega, ?_⟩
      rw [run_bind_of_ok (skipKey_of_name named), ran, resume_close .object back]
  | .cons named front written back others, enough => by
      have behind := named.length_lt
      obtain ⟨m, left, ran⟩ := skipUpTo_of_writes (n := n) (.object :: outer) written front
        (ended_of_blank back (by decide)) (by omega)
      have shorter := back.length_le
      rw [List.length_cons] at shorter
      obtain ⟨k, below, went⟩ := skipUpTo_of_members (n := m) outer others (by omega)
      refine ⟨k, below, ?_⟩
      rw [run_bind_of_ok (skipKey_of_name named), ran, resume_comma back, went]
end

/-- A value is gone past from any of its texts. -/
theorem skipValue_of_writes {d : Datum} (blank : Blank t t') (written : Writes t' d r)
    (ended : Ended r) : skipValue.run t = .ok ((), r) := by
  obtain ⟨m, -, ran⟩ := skipUpTo_of_writes [] written blank ended (Nat.lt_succ_self _)
  rw [skipValue, run_bind_of_ok (get_run t), ran, resume, closeFrames, pure_bind, skipUpTo.finish]
  rfl

end TypeClosure.Json.Reader

import TypeClosure.Syntax.Scan

/-!
Reading goes forward. Every place that the scanner answers stands behind the one it was given, in
the same text; a word takes at least one character.
-/

namespace TypeClosure

/-! ### Places of one text -/

namespace Cursor

variable {c d e : Cursor}

/-- A place further on in the same text, or the same place. -/
def Before (c d : Cursor) : Prop := ∃ n, d = c.drop n

theorem Before.refl (c : Cursor) : c.Before c := ⟨0, rfl⟩

theorem Before.trans (first : c.Before d) (second : d.Before e) : c.Before e := by
  obtain ⟨m, rfl⟩ := first
  obtain ⟨n, rfl⟩ := second
  exact ⟨m + n, by simp [drop, Nat.add_assoc]⟩

theorem before_drop (n : Nat) (c : Cursor) : c.Before (c.drop n) := ⟨n, rfl⟩

theorem before_dropWhile (p : Char → Bool) (c : Cursor) : c.Before (c.dropWhile p) := ⟨_, rfl⟩

theorem Before.offset_le (before : c.Before d) : c.offset ≤ d.offset := by
  obtain ⟨n, rfl⟩ := before
  simp

/-- In one text the offset of a place says which place it is. -/
theorem Before.eq_drop (before : c.Before d) : d = c.drop (d.offset - c.offset) := by
  obtain ⟨n, rfl⟩ := before
  simp

end Cursor

namespace Syntax

open Text Cursor

/-! ### Trivia -/

theorem before_skipTrivia (state : Trivia) (newline : Bool) (offset : Nat) (text : List Char) :
    (⟨offset, text⟩ : Cursor).Before (skipTrivia state newline offset text).2 := by
  fun_induction skipTrivia state newline offset text with
  | case1 | case8 => exact .refl _
  | case2 _ _ _ ih | case3 _ _ _ ih | case4 _ _ _ ih | case5 _ _ ih | case6 _ _ _ _ _ _ _ _ _ ih
  | case7 _ _ _ _ _ _ _ _ _ _ ih | case9 _ _ _ _ _ ih | case10 _ _ _ _ _ ih | case11 _ _ _ ih
  | case12 _ _ _ _ _ ih => exact .trans ⟨_, rfl⟩ ih

/-! ### Words -/

theorem before_fixedHex? {n value : Nat} {c after : Cursor}
    (found : fixedHex? n c = some (value, after)) : c.Before after := by
  unfold fixedHex? at found
  dsimp only at found
  split at found
  · obtain ⟨_, -, same⟩ := Option.map_eq_some_iff.mp found
    cases same
    exact before_drop n c
  · cases found

theorem before_unicodeEscape? {value : Nat} {c after : Cursor}
    (found : unicodeEscape? c = some (value, after)) : c.Before after := by
  unfold unicodeEscape? at found
  split at found
  · dsimp only at found
    split at found
    · split at found
      · cases found
      · cases found
        exact (before_drop _ c).trans (before_drop 1 _)
    · cases found
  · exact before_fixedHex? found

theorem before_escapedWord? {n : Nat} {read word : List Char} {c after : Cursor}
    (found : escapedWord? n read c = some (word, after)) : c.Before after := by
  induction n generalizing read c with
  | zero => cases found
  | succ n ih =>
      unfold escapedWord? at found
      split at found
      · split at found
        · next escape =>
            dsimp only at found
            split at found
            · exact ((before_drop 2 c).trans (before_unicodeEscape? escape)).trans (ih found)
            · cases found
        · cases found
      · cases found
      · split at found
        · exact (before_drop 1 c).trans (ih found)
        · cases found
          exact .refl _
      · cases found
        exact .refl _

/-- An escape takes at least its first two characters. -/
theorem offset_lt_of_escapedWord? {n : Nat} {read word : List Char} {c after : Cursor}
    (escape : c.next? = some '\\') (found : escapedWord? n read c = some (word, after)) :
    c.offset < after.offset := by
  cases n with
  | zero => cases found
  | succ n =>
      unfold escapedWord? at found
      split at found
      · split at found
        · next value =>
            dsimp only at found
            split at found
            · have behind :=
                ((before_unicodeEscape? value).trans (before_escapedWord? found)).offset_le
              simp only [offset_drop] at behind
              omega
            · cases found
        · cases found
      · cases found
      · next plain same =>
          rw [next?, same] at escape
          cases escape
          exact absurd rfl plain
      · next same =>
          rw [next?, same] at escape
          cases escape

theorem before_scanWord (c : Cursor) : c.Before (scanWord c).2 := by
  unfold scanWord
  dsimp only
  have plain := before_drop (c.takeWhile isIdentifierPart).length c
  split
  · split
    · next found =>
        have behind := plain.trans (before_escapedWord? found)
        split
        · exact behind
        · split
          · exact behind
          · split
            · exact behind
            · exact behind
    · exact plain
  · exact plain

/-- A word that spells something takes at least one character. -/
theorem offset_lt_of_scanWord {c after : Cursor} {word : String} {escaped : Bool}
    (scanned : scanWord c = (.word word escaped, after)) (spelled : word ≠ "") :
    c.offset < after.offset := by
  unfold scanWord at scanned
  dsimp only at scanned
  split at scanned
  · next escape =>
      split at scanned
      · next found =>
          have behind := offset_lt_of_escapedWord? (by simpa using escape) found
          simp only [offset_drop] at behind
          split at scanned
          · cases scanned
          · split at scanned
            · cases scanned
              omega
            · split at scanned
              · cases scanned
              · cases scanned
                omega
      · cases scanned
  · cases scanned
    have taken : (c.takeWhile isIdentifierPart).length ≠ 0 := by
      intro none
      exact spelled (by rw [List.length_eq_zero_iff.mp none])
    simp only [offset_drop]
    omega

/-! ### Numerals -/

theorem before_endNumeral {c d : Cursor} (before : c.Before d) (lexeme : Lexeme) :
    c.Before (endNumeral lexeme d).2 := by
  unfold endNumeral
  split
  · split
    · exact before
    · exact before
  · exact before

theorem before_scanExponent (c : Cursor) : c.Before (scanExponent c).2 := by
  unfold scanExponent
  split
  · split
    · dsimp only
      split
      all_goals
        split
        · exact .refl c
        · exact before_endNumeral ((before_drop _ c).trans (before_dropWhile _ _)) _
    · exact before_endNumeral (.refl c) _
  · exact .refl c

theorem before_scanBased (isDigit : Char → Bool) (c : Cursor) :
    c.Before (scanBased isDigit c).2 := by
  have digits := (before_drop 2 c).trans (before_dropWhile (fun d => isDigit d || d == '_') _)
  unfold scanBased
  dsimp only
  split
  · exact .refl c
  · split
    · exact before_endNumeral (digits.trans (before_drop 1 _)) _
    · exact before_endNumeral digits _

theorem fst_endNumeral (lexeme : Lexeme) (c : Cursor) :
    (endNumeral lexeme c).1 = lexeme ∨ (endNumeral lexeme c).1 = .invalid := by
  unfold endNumeral
  split
  · split
    · exact .inr rfl
    · exact .inl rfl
  · exact .inl rfl

theorem scanNumber_ne_word (c after : Cursor) (word : String) (escaped : Bool) :
    scanNumber c ≠ (.word word escaped, after) := by
  grind [scanNumber, scanBased, scanExponent, fst_endNumeral]

theorem before_scanNumber (c : Cursor) : c.Before (scanNumber c).2 := by
  unfold scanNumber
  dsimp only
  have whole := before_drop (c.takeWhile isDecimal).length c
  split
  · exact before_scanBased _ c
  · split
    · exact before_scanBased _ c
    · split
      · exact before_scanBased _ c
      · split
        · exact before_endNumeral whole _
        · split
          · exact before_endNumeral (whole.trans (before_drop 1 _)) _
          · exact (whole.trans ((before_drop 1 _).trans (before_dropWhile _ _))).trans
              (before_scanExponent _)
          · exact whole.trans (before_scanExponent _)

/-! ### Strings -/

theorem before_stringEscape? {units : List Nat} {c after : Cursor}
    (found : stringEscape? c = some (units, after)) : c.Before after := by
  unfold stringEscape? at found
  split at found
  · cases found
  all_goals try (cases found; exact before_drop _ c)
  · obtain ⟨⟨_, _⟩, hex, same⟩ := Option.map_eq_some_iff.mp found
    cases same
    exact (before_drop 1 c).trans (before_fixedHex? hex)
  · obtain ⟨⟨_, _⟩, escape, same⟩ := Option.map_eq_some_iff.mp found
    cases same
    exact (before_drop 1 c).trans (before_unicodeEscape? escape)
  · split at found
    · cases found
      exact before_drop 1 c
    · split at found
      · cases found
        exact before_drop _ c
      · cases found
        exact before_drop 1 c

theorem before_stringRest? {n : Nat} {quote : Char} {read units : List Nat} {c after : Cursor}
    (found : stringRest? n quote read c = some (units, after)) : c.Before after := by
  induction n generalizing read c with
  | zero => cases found
  | succ n ih =>
      unfold stringRest? at found
      split at found
      · cases found
        exact .refl _
      · split at found
        · next escape =>
            exact ((before_drop 1 c).trans (before_stringEscape? escape)).trans (ih found)
        · cases found
      · split at found
        · cases found
          exact before_drop 1 c
        · split at found
          · cases found
          · exact (before_drop 1 c).trans (ih found)

theorem before_scanString (quote : Char) (c : Cursor) : c.Before (scanString quote c).2 := by
  unfold scanString
  split
  · next found => exact (before_drop 1 c).trans (before_stringRest? found)
  · exact .refl c

/-! ### Lexemes and tokens -/

theorem before_scanMark (table : List (List Char × Mark)) (c : Cursor) :
    c.Before (scanMark table c).2 := by
  unfold scanMark
  split
  · exact before_drop _ c
  · exact .refl c

theorem before_scanLexeme (c : Cursor) : c.Before (scanLexeme c).2 := by
  unfold scanLexeme
  split
  · exact .refl c
  · dsimp only
    split
    · exact before_scanWord c
    · split
      · exact before_scanNumber c
      · split
        · exact before_scanString _ c
        · split
          · exact before_drop 1 c
          · exact before_scanMark marks c

theorem offset_lt_of_scanLexeme {c after : Cursor} {word : String} {escaped : Bool}
    (scanned : scanLexeme c = (.word word escaped, after)) (spelled : word ≠ "") :
    c.offset < after.offset := by
  unfold scanLexeme at scanned
  split at scanned
  · cases scanned
  · dsimp only at scanned
    split at scanned
    · exact offset_lt_of_scanWord scanned spelled
    · split at scanned
      · exact absurd scanned (scanNumber_ne_word c after word escaped)
      · split at scanned
        · grind [scanString]
        · split at scanned
          · cases scanned
          · grind [scanMark]

theorem before_first_scan (c : Cursor) : c.Before (Token.scan c).first :=
  before_skipTrivia .space false c.offset c.rest

theorem scanLexeme_first_scan (c : Cursor) :
    scanLexeme (Token.scan c).first = ((Token.scan c).lexeme, (Token.scan c).last) := rfl

theorem before_last_asOperator {t : Token} (before : t.first.Before t.last) :
    t.first.Before t.asOperator.last := by
  unfold Token.asOperator
  split
  · exact before_scanMark angleOperators t.first
  · exact before

/-! ### Text that is read in its place -/

theorem before_templateText? {isValid : Bool} {offset : Nat} {text : List Char}
    {result : Bool × TemplateEnd × Cursor}
    (found : templateText? isValid offset text = some result) :
    (⟨offset, text⟩ : Cursor).Before result.2.2 := by
  fun_induction templateText? isValid offset text with
  | case1 => cases found
  | case2 | case3 =>
      cases found
      exact ⟨_, rfl⟩
  | case4 _ _ _ _ ih | case5 _ _ _ _ _ _ _ ih => exact .trans ⟨_, rfl⟩ (ih found)

theorem before_regexBody? {inClass : Bool} {offset : Nat} {text : List Char} {last : Cursor}
    (found : regexBody? inClass offset text = some last) :
    (⟨offset, text⟩ : Cursor).Before last := by
  fun_induction regexBody? inClass offset text with
  | case1 | case2 | case4 => cases found
  | case3 _ _ _ _ _ ih | case5 _ _ _ _ _ _ _ ih | case6 _ _ _ _ _ _ _ _ ih
  | case8 _ _ _ _ _ _ _ _ _ ih => exact .trans ⟨_, rfl⟩ (ih found)
  | case7 =>
      cases found
      exact ⟨1, rfl⟩

theorem before_regexEnd? {c last : Cursor} (found : regexEnd? c = some last) : c.Before last := by
  obtain ⟨body, read, rfl⟩ := Option.map_eq_some_iff.mp found
  exact ((before_drop 1 c).trans (before_regexBody? read)).trans (before_dropWhile _ body)

theorem before_jsxStringEnd? {c last : Cursor} (found : jsxStringEnd? c = some last) :
    c.Before last := by
  unfold jsxStringEnd? at found
  split at found
  · dsimp only at found
    split at found
    · cases found
    · cases found
      exact (before_drop _ c).trans (before_drop 1 _)
  · cases found

end Syntax

end TypeClosure

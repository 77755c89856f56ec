import TypeClosure.Json.Reader
import TypeClosure.Proofs.Json.Grammar

/-!
Reading JSON values of a shape that is known. What is read of a text of such a value is the value, in
whichever way the text is laid out and the characters of strings are written.
-/

namespace TypeClosure.Json.Reader

open Text (hexDigit? hexValue?)

variable {α β : Type} {t t' r cs : List Char} {c : Char}

theorem run_bind_of_ok {reader : Reader α} {a : α} (first : reader.run t = .ok (a, t'))
    (next : α → Reader β) : (reader >>= next).run t = (next a).run t' := by
  rw [StateT.run_bind, first]
  rfl

theorem run_bind_congr {reader : Reader α} (same : reader.run t = reader.run t')
    (next : α → Reader β) : (reader >>= next).run t = (reader >>= next).run t' := by
  rw [StateT.run_bind, StateT.run_bind, same]

/-! ### Characters -/

theorem dropWhile_isSpace_congr (blank : Blank t t') :
    t.dropWhile isSpace = t'.dropWhile isSpace := by
  induction blank with
  | nothing => rfl
  | more space _ ih =>
      have all : ∀ d ∈ [' ', '\n', '\t', '\r'], isSpace d = true := by simp [isSpace]
      rw [List.dropWhile_cons_of_pos (all _ space), ih]

theorem dropWhile_isSpace_of_blank (blank : Blank t (c :: r)) (mark : isSpace c = false) :
    t.dropWhile isSpace = c :: r := by
  rw [dropWhile_isSpace_congr blank, List.dropWhile_cons_of_neg (by simp [mark])]

theorem start_of_blank (blank : Blank t (c :: r)) (mark : isSpace c = false) :
    start.run t = .ok (c, c :: r) := by
  have peeked : peekBehindSpace?.run t = .ok (some c, c :: r) := by
    change Except.ok ((t.dropWhile isSpace).head?, t.dropWhile isSpace) = _
    rw [dropWhile_isSpace_of_blank blank mark, List.head?_cons]
  rw [start, run_bind_of_ok peeked]
  rfl

theorem skip_cons (c : Char) (r : List Char) : skip.run (c :: r) = .ok ((), r) := rfl

theorem next_cons (c : Char) (r : List Char) : next.run (c :: r) = .ok (c, r) := rfl

theorem expect_of_blank (blank : Blank t (c :: r)) (mark : isSpace c = false) :
    (expect c).run t = .ok ((), r) := by
  rw [expect, run_bind_of_ok (start_of_blank blank mark), if_pos (beq_self_eq_true c), skip_cons]

theorem word_append (w r : List Char) : (word w).run (w ++ r) = .ok ((), r) := by
  induction w with
  | nil => rfl
  | cons c w ih =>
      rw [word, List.cons_append, run_bind_of_ok (next_cons c _), if_pos (beq_self_eq_true c), ih]

theorem isSpace_of_starts {first : Char} (starts : first ∉ separators) : isSpace first = false := by
  simp only [separators, List.mem_cons, not_or] at starts
  simp [isSpace, starts]

/-! ### Strings -/

theorem hexDigit?_of_hexDigit {n : Nat} (digit : HexDigit c n) : hexDigit? c = some n := by
  have lower : ∀ n < 16, hexDigit? (Nat.digitChar n) = some n := by decide
  have upper : ∀ n < 16, hexDigit? (Nat.digitChar n).toUpper = some n := by decide
  cases digit with
  | lower small => exact lower n small
  | upper small => exact upper n small

theorem le_utf8ByteSize_ofList (cs : List Char) : cs.length ≤ (String.ofList cs).utf8ByteSize := by
  induction cs with
  | nil => exact Nat.zero_le _
  | cons c cs ih =>
      rw [← List.singleton_append, String.ofList_append, String.utf8ByteSize_append]
      have := c.utf8Size_pos
      simp
      omega

theorem get_run (t : List Char) : (get : Reader (List Char)).run t = .ok (t, t) := rfl

theorem hexEscape_append {n : Nat} (code : HexCode cs n) (r : List Char) :
    hexEscape.run (cs ++ r) = .ok (n, r) := by
  cases code with
  | @mk a b c d w x y z ha hb hc hd =>
      have enough : ¬ (String.ofList [a, b, c, d]).utf8ByteSize < 4 :=
        Nat.not_lt.mpr (le_utf8ByteSize_ofList [a, b, c, d])
      have read : hexValue? [a, b, c, d] = some (((w * 16 + x) * 16 + y) * 16 + z) := by
        simp [hexValue?, hexDigit?_of_hexDigit ha, hexDigit?_of_hexDigit hb,
          hexDigit?_of_hexDigit hc, hexDigit?_of_hexDigit hd]
      have front : ([a, b, c, d] ++ r).take 4 = [a, b, c, d] := rfl
      rw [hexEscape, run_bind_of_ok (get_run _), front]
      dsimp only
      rw [if_neg enough, read]
      rfl

theorem plainEscape?_of_mem {letter : Char} (known : (letter, c) ∈ shortEscapes) :
    plainEscape? letter = some c := by
  have all : ∀ p ∈ shortEscapes, plainEscape? p.1 = some p.2 := by decide
  exact all _ known

theorem escape_short {letter : Char} (known : (letter, c) ∈ shortEscapes) (r : List Char) :
    escape.run (letter :: r) = .ok (c, r) := by
  rw [escape, run_bind_of_ok (next_cons letter r), plainEscape?_of_mem known]
  rfl

theorem escape_unicode (t : List Char) : escape.run ('u' :: t) = unicodeEscape.run t := by
  rw [escape, run_bind_of_ok (next_cons 'u' t)]
  rfl

/-- A character has no value between the surrogates. -/
theorem not_surrogate (c : Char) : c.toNat < 0xd800 ∨ 0xdfff < c.toNat := by
  rcases c.valid with low | ⟨high, -⟩
  · exact .inl low
  · exact .inr high

theorem escape_code (code : HexCode cs c.toNat) (r : List Char) :
    escape.run ('u' :: (cs ++ r)) = .ok (c, r) := by
  have single : (decide (c.toNat < 0xd800) || decide (0xdfff < c.toNat)) = true := by
    simpa using not_surrogate c
  rw [escape_unicode, unicodeEscape, run_bind_of_ok (hexEscape_append code r)]
  dsimp only
  rw [if_pos single, Char.ofNat_toNat]
  rfl

theorem escape_pair {first second : List Char} {high low : Nat} (code : HexCode first high)
    (partner : HexCode second low) (isHigh : 0xd800 ≤ high) (belowLow : high < 0xdc00)
    (isLow : 0xdc00 ≤ low) (below : low < 0xe000)
    (value : c.toNat = 0x10000 + (high - 0xd800) * 0x400 + (low - 0xdc00)) (r : List Char) :
    escape.run ('u' :: (first ++ '\\' :: 'u' :: (second ++ r))) = .ok (c, r) := by
  have surrogate : ¬ (decide (high < 0xd800) || decide (0xdfff < high)) = true := by
    simp
    omega
  have fits : ¬ (decide (low < 0xdc00) || decide (0xdfff < low)) = true := by
    simp
    omega
  rw [escape_unicode, unicodeEscape, run_bind_of_ok (hexEscape_append code _)]
  dsimp only
  rw [if_neg surrogate, if_neg (Nat.not_le.mpr belowLow), run_bind_of_ok (next_cons _ _),
    if_neg (by decide), run_bind_of_ok (next_cons _ _), if_neg (by decide),
    run_bind_of_ok (hexEscape_append partner r), if_neg fits, ← value, Char.ofNat_toNat]
  rfl

theorem stringUpTo_of_escape {n : Nat} (read : escape.run t = .ok (c, t'))
    (others : (stringUpTo n).run t' = .ok (cs, r)) :
    (stringUpTo (n + 1)).run ('\\' :: t) = .ok (c :: cs, r) := by
  rw [stringUpTo, run_bind_of_ok (next_cons _ _), if_neg (by decide), if_pos rfl,
    run_bind_of_ok read, run_bind_of_ok others]
  rfl

/-- The characters of a string are read, if so many are read that the text cannot hold more. -/
theorem stringUpTo_of_content (content : Content t cs r) {n : Nat} (enough : t.length < n) :
    (stringUpTo n).run t = .ok (cs, r) := by
  induction content generalizing n with
  | close =>
      obtain ⟨n, rfl⟩ := Nat.exists_eq_add_of_lt enough
      rw [stringUpTo, run_bind_of_ok (next_cons _ _), if_pos rfl]
      rfl
  | plain notQuote notBackslash visible _ ih =>
      obtain ⟨n, rfl⟩ := Nat.exists_eq_add_of_lt enough
      rw [stringUpTo, run_bind_of_ok (next_cons _ _), if_neg notQuote, if_neg notBackslash,
        if_neg (Nat.not_lt.mpr visible), run_bind_of_ok (ih (by simp; omega))]
      rfl
  | short known _ ih =>
      obtain ⟨n, rfl⟩ := Nat.exists_eq_add_of_lt enough
      exact stringUpTo_of_escape (escape_short known _) (ih (by simp; omega))
  | code code _ ih =>
      obtain ⟨n, rfl⟩ := Nat.exists_eq_add_of_lt enough
      exact stringUpTo_of_escape (escape_code code _) (ih (by simp; omega))
  | pair code partner isHigh belowLow isLow below value _ ih =>
      obtain ⟨n, rfl⟩ := Nat.exists_eq_add_of_lt enough
      exact stringUpTo_of_escape (escape_pair code partner isHigh belowLow isLow below value _)
        (ih (by simp; omega))

theorem stringBody_of_content (content : Content t cs r) :
    stringBody.run t = .ok (String.ofList cs, r) := by
  rw [stringBody, run_bind_of_ok (get_run t),
    run_bind_of_ok (stringUpTo_of_content content (Nat.lt_succ_self _))]
  rfl

theorem string_of_content {t₁ : List Char} (blank : Blank t ('"' :: t₁))
    (content : Content t₁ cs r) : string.run t = .ok (String.ofList cs, r) := by
  rw [string, run_bind_of_ok (start_of_blank blank rfl), if_pos (by decide),
    run_bind_of_ok (skip_cons _ _), stringBody_of_content content]

/-! ### Values that are wanted -/

/-- A reader reads a value from each of its texts. -/
def Reads (value : Reader α) (datum : α → Datum) : Prop :=
  ∀ a {t₀ t r : List Char}, Blank t₀ t → Writes t (datum a) r → value.run t₀ = .ok (a, r)

theorem reads_string : Reads string .string := by
  intro a t₀ t r blank written
  cases written with
  | string content => exact string_of_content blank content

theorem reads_bool : Reads bool .bool := by
  intro a t₀ t r blank written
  cases written with
  | yes =>
      rw [bool, run_bind_of_ok (start_of_blank blank rfl)]
      exact run_bind_of_ok (word_append "true".toList r) _
  | no =>
      rw [bool, run_bind_of_ok (start_of_blank blank rfl)]
      exact run_bind_of_ok (word_append "false".toList r) _

section

variable {t₀ : List Char} {first : Bool}

/-- The first element or member comes at once, each other one behind a comma. -/
inductive Reached : Bool → List Char → List Char → Prop
  | first {t : List Char} : Reached true t t
  | behind {t₀ t : List Char} : Blank t₀ (',' :: t) → Reached false t₀ t

theorem hasElement_of_reached (reached : Reached first t₀ t) (blank : Blank t (c :: t'))
    (starts : c ∉ separators) : (hasElement first).run t₀ = .ok (true, c :: t') := by
  have started := start_of_blank blank (isSpace_of_starts starts)
  have filled : ¬ (c == ']') = true := by
    rw [beq_iff_eq]
    rintro rfl
    exact starts (by decide)
  cases reached with
  | first =>
      rw [hasElement, run_bind_of_ok started, if_neg filled]
      rfl
  | behind comma =>
      rw [hasElement, run_bind_of_ok (start_of_blank comma rfl), if_neg (by decide),
        if_neg Bool.false_ne_true, if_pos (by decide), run_bind_of_ok (skip_cons _ _),
        run_bind_of_ok started, if_neg filled]
      rfl

theorem hasElement_of_close (blank : Blank t (']' :: r)) :
    (hasElement first).run t = .ok (false, ']' :: r) := by
  rw [hasElement, run_bind_of_ok (start_of_blank blank rfl)]
  rfl

theorem Reached.length_le (reached : Reached first t₀ t) : t.length ≤ t₀.length := by
  cases reached with
  | first => exact Nat.le_refl _
  | behind comma => exact Nat.le_of_succ_le comma.length_le

theorem hasMember_of_reached (reached : Reached first t₀ t) (quote : Blank t ('"' :: t')) :
    (hasMember first).run t₀ = .ok (true, '"' :: t') := by
  cases reached with
  | first =>
      rw [hasMember, run_bind_of_ok (start_of_blank quote rfl)]
      rfl
  | behind comma =>
      rw [hasMember, run_bind_of_ok (start_of_blank comma rfl), if_neg (by decide),
        if_neg Bool.false_ne_true, if_pos (by decide), run_bind_of_ok (skip_cons _ _),
        run_bind_of_ok (start_of_blank quote rfl)]
      rfl

theorem hasMember_of_close (blank : Blank t ('\x7d' :: r)) :
    (hasMember first).run t = .ok (false, '\x7d' :: r) := by
  rw [hasMember, run_bind_of_ok (start_of_blank blank rfl)]
  rfl

theorem elementsUpTo_of_elements {value : Reader α} {datum : α → Datum}
    (reads : Reads value datum) {as : List α} (written : WritesElements t (as.map datum) r)
    {n : Nat} (reached : Reached first t₀ t) (enough : t₀.length < n) :
    (elementsUpTo value n first).run t₀ = .ok (as, ']' :: r) := by
  induction n generalizing t as t₀ first with
  | zero => exact absurd enough (Nat.not_lt_zero _)
  | succ n ih =>
      have := reached.length_le
      generalize same : as.map datum = ds at written
      cases written with
      | last front written back =>
          obtain ⟨a, rfl, rfl⟩ := List.map_eq_singleton_iff.mp same
          obtain ⟨c, _, rfl, starts⟩ := written.exists_first
          have := front.length_le
          obtain ⟨n, rfl⟩ : ∃ m, n = m + 1 := ⟨n - 1, by simp only [List.length_cons] at *; omega⟩
          rw [elementsUpTo, run_bind_of_ok (hasElement_of_reached reached front starts), if_pos rfl,
            run_bind_of_ok (reads a .nothing written), elementsUpTo, bind_assoc,
            run_bind_of_ok (hasElement_of_close back)]
          rfl
      | cons front written back others =>
          obtain ⟨a, as, rfl, rfl, rfl⟩ := List.map_eq_cons_iff.mp same
          obtain ⟨c, _, rfl, starts⟩ := written.exists_first
          have := front.length_le
          have := written.length_lt
          rw [elementsUpTo, run_bind_of_ok (hasElement_of_reached reached front starts), if_pos rfl,
            run_bind_of_ok (reads a .nothing written),
            run_bind_of_ok (ih others (.behind back) (by omega))]
          rfl

/-- If a reader reads a value from each of its texts, then it reads lists of values so. -/
theorem Reads.array {value : Reader α} {datum : α → Datum} (reads : Reads value datum) :
    Reads (array value) fun as => .array (as.map datum) := by
  intro as t₀ t r blank written
  have opened {t : List Char} (blank : Blank t₀ ('[' :: t))
      (read : (elementsUpTo value (t.length + 1) true).run t = .ok (as, ']' :: r)) :
      (Reader.array value).run t₀ = .ok (as, r) := by
    rw [Reader.array, run_bind_of_ok (start_of_blank blank rfl), if_pos (by decide),
      run_bind_of_ok (skip_cons _ _), run_bind_of_ok (get_run _), run_bind_of_ok read,
      run_bind_of_ok (expect_of_blank .nothing rfl)]
    rfl
  change Writes t (.array (as.map datum)) r at written
  generalize same : as.map datum = ds at written
  cases written with
  | noElements closing =>
      cases List.map_eq_nil_iff.mp same
      refine opened blank ?_
      rw [elementsUpTo, run_bind_of_ok (hasElement_of_close closing)]
      rfl
  | elements written =>
      rw [← same] at written
      exact opened blank (elementsUpTo_of_elements reads written .first (Nat.lt_succ_self _))

end

end TypeClosure.Json.Reader

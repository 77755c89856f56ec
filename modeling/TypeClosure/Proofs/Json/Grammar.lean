/-!
The texts of JSON values. `Writes t d r` says that the text `t` starts with a text of the value `d`,
and that `r` is left behind it. Blank space may stand around all values, names and marks, and each
character of a string may be written in any of its ways.
-/

namespace TypeClosure.Json

/-- A JSON value. A number is what is written of it. -/
inductive Datum where
  | null
  | bool (value : Bool)
  | number (literal : String)
  | string (value : String)
  | array (elements : List Datum)
  | object (members : List (String × Datum))

/-- Blank space up to the rest of a text. -/
inductive Blank : List Char → List Char → Prop
  | nothing {r : List Char} : Blank r r
  | more {c : Char} {t r : List Char} : c ∈ [' ', '\n', '\t', '\r'] → Blank t r → Blank (c :: t) r

/-! ### Strings -/

inductive HexDigit : Char → Nat → Prop
  | lower {n : Nat} : n < 16 → HexDigit (Nat.digitChar n) n
  | upper {n : Nat} : n < 16 → HexDigit (Nat.digitChar n).toUpper n

/-- Four hexadecimal digits and their value. -/
inductive HexCode : List Char → Nat → Prop
  | mk {a b c d : Char} {w x y z : Nat} :
      HexDigit a w → HexDigit b x → HexDigit c y → HexDigit d z →
      HexCode [a, b, c, d] (((w * 16 + x) * 16 + y) * 16 + z)

/-- What may follow a backslash alone, and the characters for which it stands. -/
def shortEscapes : List (Char × Char) :=
  [('"', '"'), ('\\', '\\'), ('/', '/'), ('b', '\x08'), ('f', '\x0c'), ('n', '\n'), ('r', '\r'),
    ('t', '\t')]

/-- The characters of a string, up to the rest behind its closing quote. A character beyond the
first 65536 may be written as two surrogates. -/
inductive Content : List Char → List Char → List Char → Prop
  | close {r : List Char} : Content ('"' :: r) [] r
  | plain {c : Char} {t cs r : List Char} :
      c ≠ '"' → c ≠ '\\' → 0x20 ≤ c.toNat → Content t cs r → Content (c :: t) (c :: cs) r
  | short {letter c : Char} {t cs r : List Char} :
      (letter, c) ∈ shortEscapes → Content t cs r → Content ('\\' :: letter :: t) (c :: cs) r
  | code {digits : List Char} {c : Char} {t cs r : List Char} :
      HexCode digits c.toNat → Content t cs r →
      Content ('\\' :: 'u' :: (digits ++ t)) (c :: cs) r
  | pair {first second : List Char} {high low : Nat} {c : Char} {t cs r : List Char} :
      HexCode first high → HexCode second low → 0xd800 ≤ high → high < 0xdc00 → 0xdc00 ≤ low →
      low < 0xe000 → c.toNat = 0x10000 + (high - 0xd800) * 0x400 + (low - 0xdc00) →
      Content t cs r →
      Content ('\\' :: 'u' :: (first ++ '\\' :: 'u' :: (second ++ t))) (c :: cs) r

/-! ### Numbers -/

structure Digits (ds : List Char) : Prop where
  ne_nil : ds ≠ []
  isDigit : ∀ d ∈ ds, d.isDigit = true

/-- The digits of a whole number: none is in front of them but a zero alone. -/
structure Whole (ds : List Char) : Prop extends Digits ds where
  zero_alone : ds.head? = some '0' → ds = ['0']

inductive Fraction : List Char → Prop
  | none : Fraction []
  | some {ds : List Char} : Digits ds → Fraction ('.' :: ds)

inductive Exponent : List Char → Prop
  | none : Exponent []
  | some {letter : Char} {sign ds : List Char} :
      letter ∈ ['e', 'E'] → sign ∈ [[], ['+'], ['-']] → Digits ds →
      Exponent (letter :: (sign ++ ds))

/-- A number without its sign. -/
inductive Magnitude : List Char → Prop
  | mk {whole fraction exponent : List Char} :
      Whole whole → Fraction fraction → Exponent exponent →
      Magnitude (whole ++ (fraction ++ exponent))

inductive Literal : List Char → Prop
  | positive {cs : List Char} : Magnitude cs → Literal cs
  | negative {cs : List Char} : Magnitude cs → Literal ('-' :: cs)

/-! ### Values -/

/-- The name of a member with its colon. -/
inductive Name : List Char → String → List Char → Prop
  | mk {t t₁ t₂ r cs : List Char} :
      Blank t ('"' :: t₁) → Content t₁ cs t₂ → Blank t₂ (':' :: r) →
      Name t (String.ofList cs) r

mutual
inductive Writes : List Char → Datum → List Char → Prop
  | null {r : List Char} : Writes ("null".toList ++ r) .null r
  | yes {r : List Char} : Writes ("true".toList ++ r) (.bool true) r
  | no {r : List Char} : Writes ("false".toList ++ r) (.bool false) r
  | number {cs r : List Char} : Literal cs → Writes (cs ++ r) (.number (String.ofList cs)) r
  | string {t cs r : List Char} : Content t cs r → Writes ('"' :: t) (.string (String.ofList cs)) r
  | noElements {t r : List Char} : Blank t (']' :: r) → Writes ('[' :: t) (.array []) r
  | elements {t r : List Char} {ds : List Datum} :
      WritesElements t ds r → Writes ('[' :: t) (.array ds) r
  | noMembers {t r : List Char} : Blank t ('\x7d' :: r) → Writes ('\x7b' :: t) (.object []) r
  | members {t r : List Char} {ms : List (String × Datum)} :
      WritesMembers t ms r → Writes ('\x7b' :: t) (.object ms) r

/-- The elements of an array and what closes it. -/
inductive WritesElements : List Char → List Datum → List Char → Prop
  | last {t t₁ t₂ r : List Char} {d : Datum} :
      Blank t t₁ → Writes t₁ d t₂ → Blank t₂ (']' :: r) → WritesElements t [d] r
  | cons {t t₁ t₂ t₃ r : List Char} {d : Datum} {ds : List Datum} :
      Blank t t₁ → Writes t₁ d t₂ → Blank t₂ (',' :: t₃) → WritesElements t₃ ds r →
      WritesElements t (d :: ds) r

/-- The members of an object and what closes it. -/
inductive WritesMembers : List Char → List (String × Datum) → List Char → Prop
  | last {t t₁ t₂ t₃ r : List Char} {name : String} {d : Datum} :
      Name t name t₁ → Blank t₁ t₂ → Writes t₂ d t₃ → Blank t₃ ('\x7d' :: r) →
      WritesMembers t [(name, d)] r
  | cons {t t₁ t₂ t₃ t₄ r : List Char} {name : String} {d : Datum} {ms : List (String × Datum)} :
      Name t name t₁ → Blank t₁ t₂ → Writes t₂ d t₃ → Blank t₃ (',' :: t₄) →
      WritesMembers t₄ ms r → WritesMembers t ((name, d) :: ms) r
end

/-- A text is one of the texts of a value. -/
def IsTextOf (text : String) (d : Datum) : Prop :=
  ∃ t r, Blank text.toList t ∧ Writes t d r ∧ Blank r []

/-! ### What is left is shorter -/

theorem Blank.length_le {t r : List Char} (blank : Blank t r) : r.length ≤ t.length := by
  induction blank with
  | nothing => exact Nat.le_refl _
  | more _ _ ih => exact Nat.le_succ_of_le ih

theorem Blank.trans {t s r : List Char} (first : Blank t s) (second : Blank s r) : Blank t r := by
  induction first with
  | nothing => exact second
  | more space _ ih => exact .more space (ih second)

theorem Content.length_lt {t cs r : List Char} (content : Content t cs r) :
    r.length < t.length := by
  induction content with
  | close => exact Nat.lt_succ_self _
  | plain _ _ _ _ ih => exact Nat.lt_succ_of_lt ih
  | short _ _ ih =>
      simp only [List.length_cons]
      omega
  | code _ _ ih =>
      simp only [List.length_cons, List.length_append]
      omega
  | pair _ _ _ _ _ _ _ _ ih =>
      simp only [List.length_cons, List.length_append]
      omega

theorem Name.length_lt {t r : List Char} {name : String} (named : Name t name r) :
    r.length < t.length := by
  obtain ⟨blank, content, colon⟩ := named
  have := blank.length_le
  have := content.length_lt
  have := colon.length_le
  simp only [List.length_cons] at *
  omega

theorem Magnitude.exists_digit {cs : List Char} (magnitude : Magnitude cs) :
    ∃ d ds, cs = d :: ds ∧ d.isDigit = true := by
  obtain @⟨whole, fraction, exponent, isWhole, -, -⟩ := magnitude
  cases whole with
  | nil => exact absurd rfl isWhole.ne_nil
  | cons d ds => exact ⟨d, _, rfl, isWhole.isDigit d List.mem_cons_self⟩

theorem Literal.ne_nil {cs : List Char} (literal : Literal cs) : cs ≠ [] := by
  cases literal with
  | positive magnitude =>
      obtain ⟨_, _, rfl, _⟩ := magnitude.exists_digit
      exact List.cons_ne_nil _ _
  | negative _ => exact List.cons_ne_nil _ _

mutual
theorem Writes.length_lt {t r : List Char} {d : Datum} : Writes t d r → r.length < t.length
  | .null | .yes | .no => by
      rw [List.length_append]
      exact Nat.lt_add_of_pos_left (by decide)
  | .number literal => by
      have := List.length_pos_iff.mpr literal.ne_nil
      rw [List.length_append]
      omega
  | .string content => Nat.lt_succ_of_lt content.length_lt
  | .noElements blank | .noMembers blank => by
      have := blank.length_le
      simp only [List.length_cons] at *
      omega
  | .elements written => Nat.lt_succ_of_lt written.length_lt
  | .members written => Nat.lt_succ_of_lt written.length_lt

theorem WritesElements.length_lt {t r : List Char} {ds : List Datum} :
    WritesElements t ds r → r.length < t.length
  | .last front written back => by
      have := front.length_le
      have := written.length_lt
      have := back.length_le
      simp only [List.length_cons] at *
      omega
  | .cons front written back others => by
      have := front.length_le
      have := written.length_lt
      have := back.length_le
      have := others.length_lt
      simp only [List.length_cons] at *
      omega

theorem WritesMembers.length_lt {t r : List Char} {ms : List (String × Datum)} :
    WritesMembers t ms r → r.length < t.length
  | .last named front written back => by
      have := named.length_lt
      have := front.length_le
      have := written.length_lt
      have := back.length_le
      simp only [List.length_cons] at *
      omega
  | .cons named front written back others => by
      have := named.length_lt
      have := front.length_le
      have := written.length_lt
      have := back.length_le
      have := others.length_lt
      simp only [List.length_cons] at *
      omega
end

/-! ### Where a value starts -/

/-- The marks at which no value starts. -/
def separators : List Char := [' ', '\n', '\t', '\r', ',', ']', '\x7d']

theorem Writes.exists_first {t r : List Char} {d : Datum} (written : Writes t d r) :
    ∃ first t', t = first :: t' ∧ first ∉ separators := by
  cases written with
  | number literal =>
      cases literal with
      | negative _ => exact ⟨_, _, rfl, by decide⟩
      | positive magnitude =>
          obtain ⟨digit, ds, rfl, isDigit⟩ := magnitude.exists_digit
          have none : ∀ c ∈ separators, c.isDigit = false := by simp [separators]
          refine ⟨digit, _, rfl, fun member => ?_⟩
          rw [none digit member] at isDigit
          contradiction
  | _ => exact ⟨_, _, rfl, by decide⟩

theorem WritesElements.exists_first {t r : List Char} {ds : List Datum}
    (written : WritesElements t ds r) :
    ∃ first t', Blank t (first :: t') ∧ first ∉ separators := by
  cases written with
  | last front written _ | cons front written _ _ =>
      obtain ⟨first, t', rfl, starts⟩ := written.exists_first
      exact ⟨first, t', front, starts⟩

theorem WritesMembers.exists_quote {t r : List Char} {ms : List (String × Datum)}
    (written : WritesMembers t ms r) : ∃ t', Blank t ('"' :: t') := by
  cases written with
  | last named _ _ _ | cons named _ _ _ _ =>
      obtain ⟨quote, _, _⟩ := named
      exact ⟨_, quote⟩

end TypeClosure.Json

import Mathlib.Tactic.SplitIfs
import TypeClosure.Json.Value
import TypeClosure.Proofs.Json.Grammar

/-! The text that is written for a value is one of its texts. -/

namespace TypeClosure.Json.Value

mutual
/-- A value as far as it does not matter how it is written. -/
def datum : Value → Datum
  | .bool value => .bool value
  | .number value => .number (toString value)
  | .string value => .string value
  | .array vs => .array (elementData vs)
  | .object ms => .object (memberData ms)

def elementData : List Value → List Datum
  | [] => []
  | v :: vs => v.datum :: elementData vs

def memberData : List (String × Value) → List (String × Datum)
  | [] => []
  | (name, v) :: ms => (name, v.datum) :: memberData ms
end

theorem elementData_eq_map (vs : List Value) : elementData vs = vs.map datum := by
  induction vs with
  | nil => rfl
  | cons v vs ih => rw [elementData, List.map_cons, ih]

theorem datum_strings (texts : List String) :
    (strings texts).datum = .array (texts.map .string) := by
  rw [strings, datum, elementData_eq_map, List.map_map]
  rfl

variable {r r' : List Char} {depth : Nat}

/-! ### Strings -/

theorem content_escaped_append {c : Char} {t cs : List Char} (others : Content t cs r) :
    Content (escaped c ++ t) (c :: cs) r := by
  unfold escaped
  split_ifs with quote backslash backspace formFeed lineFeed carriageReturn tab control
  · exact .short (by rw [quote]; decide) others
  · exact .short (by rw [backslash]; decide) others
  · exact .short (by rw [backspace]; decide) others
  · exact .short (by rw [formFeed]; decide) others
  · exact .short (by rw [lineFeed]; decide) others
  · exact .short (by rw [carriageReturn]; decide) others
  · exact .short (by rw [tab]; decide) others
  · have zero : HexDigit '0' 0 := HexDigit.lower (n := 0) (by decide)
    have code := HexCode.mk zero zero (.lower (n := c.toNat / 16) (by omega))
      (.lower (n := c.toNat % 16) (by omega))
    have value : ((0 * 16 + 0) * 16 + c.toNat / 16) * 16 + c.toNat % 16 = c.toNat := by omega
    rw [value] at code
    exact .code code others
  · exact .plain quote backslash (Nat.not_lt.mp control) others

theorem content_escaped (cs r : List Char) : Content (cs.flatMap escaped ++ '"' :: r) cs r := by
  induction cs with
  | nil => exact .close
  | cons c cs ih =>
      rw [List.flatMap_cons, List.append_assoc]
      exact content_escaped_append ih

theorem toList_quoted_append (text : String) (r : List Char) :
    (quoted text).toList ++ r = '"' :: (text.toList.flatMap escaped ++ '"' :: r) := by
  simp [quoted]

/-! ### Numbers -/

/-- No zero stands in front of the other digits of a number. -/
theorem eq_zero_of_head?_toDigits (n : Nat) (zero : (Nat.toDigits 10 n).head? = some '0') :
    n = 0 := by
  induction n using Nat.strongRecOn with
  | ind n ih =>
      by_cases small : n < 10
      · have digit : ∀ m < 10, Nat.digitChar m = '0' → m = 0 := by decide
        rw [Nat.toDigits_of_lt_base small] at zero
        exact digit n small (Option.some.inj zero)
      · rw [Nat.toDigits_of_base_le (by decide) (Nat.not_lt.mp small),
          List.head?_append, Option.or_of_isSome (List.isSome_head?.mpr Nat.toDigits_ne_nil)] at zero
        have := ih (n / 10) (by omega) zero
        omega

theorem literal_toString (n : Nat) : Literal (toString n).toList := by
  have whole : Whole (Nat.toDigits 10 n) :=
    { ne_nil := Nat.toDigits_ne_nil
      isDigit := fun d member => Nat.isDigit_of_mem_toDigits (by decide) (by decide) member
      zero_alone := fun zero => by rw [eq_zero_of_head?_toDigits n zero, Nat.toDigits_zero] }
  have literal := Literal.positive (.mk whole .none .none)
  rwa [List.append_nil, List.append_nil, ← Nat.toList_repr] at literal

/-! ### Values -/

theorem blank_newLine (depth : Nat) (r : List Char) : Blank ((newLine depth).toList ++ r) r := by
  have spaces (k : Nat) : Blank (List.replicate k ' ' ++ r) r := by
    induction k with
    | zero => exact .nothing
    | succ k ih => exact .more (by decide) ih
  simp only [newLine, String.toList_append, String.toList_ofList, List.append_assoc]
  exact .more (c := '\n') (by decide) (spaces _)

theorem name_quoted (name : String) (r : List Char) :
    Name ((newLine depth).toList ++ ((quoted name).toList ++ ':' :: r)) name r := by
  have named := Name.mk (blank_newLine depth _) (content_escaped name.toList (':' :: r)) .nothing
  rwa [← toList_quoted_append, String.ofList_toList] at named

mutual
theorem writes_pretty (depth : Nat) (r : List Char) :
    ∀ v : Value, Writes ((v.pretty depth).toList ++ r) v.datum r
  | .bool true => by
      rw [pretty, datum]
      exact .yes
  | .bool false => by
      rw [pretty, datum]
      exact .no
  | .number value => by
      have written := Writes.number (r := r) (literal_toString value)
      rwa [String.ofList_toList] at written
  | .string value => by
      have written := Writes.string (content_escaped value.toList r)
      rwa [String.ofList_toList, ← toList_quoted_append] at written
  | .array [] => by
      rw [pretty, datum, elementData]
      exact .noElements .nothing
  | .object [] => by
      rw [pretty, datum, memberData]
      exact .noMembers .nothing
  | .array (v :: vs) => by
      simp only [pretty, datum, String.toList_append, List.append_assoc]
      exact .elements (writesElements_pretty (depth + 1) (blank_newLine depth (']' :: r)) (v :: vs)
        (List.cons_ne_nil _ _))
  | .object (m :: ms) => by
      simp only [pretty, datum, String.toList_append, List.append_assoc]
      exact .members (writesMembers_pretty (depth + 1) (blank_newLine depth ('\x7d' :: r)) (m :: ms)
        (List.cons_ne_nil _ _))

theorem writesElements_pretty (depth : Nat) {r r' : List Char} (closing : Blank r (']' :: r')) :
    ∀ vs : List Value, vs ≠ [] →
      WritesElements ((prettyElements depth vs).toList ++ r) (elementData vs) r'
  | [], filled => absurd rfl filled
  | [v], _ => by
      rw [prettyElements, String.toList_append, List.append_assoc]
      exact .last (blank_newLine depth _) (writes_pretty depth r v) closing
  | v :: w :: vs, _ => by
      simp only [prettyElements, String.toList_append, List.append_assoc]
      exact .cons (blank_newLine depth _) (writes_pretty depth _ v) .nothing
        (writesElements_pretty depth closing (w :: vs) (List.cons_ne_nil _ _))

theorem writesMembers_pretty (depth : Nat) {r r' : List Char} (closing : Blank r ('\x7d' :: r')) :
    ∀ ms : List (String × Value), ms ≠ [] →
      WritesMembers ((prettyMembers depth ms).toList ++ r) (memberData ms) r'
  | [], filled => absurd rfl filled
  | [(name, v)], _ => by
      simp only [prettyMembers, String.toList_append, List.append_assoc]
      exact .last (name_quoted name _) (.more (by decide) .nothing) (writes_pretty depth r v) closing
  | (name, v) :: m :: ms, _ => by
      simp only [prettyMembers, String.toList_append, List.append_assoc]
      exact .cons (name_quoted name _) (.more (by decide) .nothing) (writes_pretty depth _ v)
        .nothing (writesMembers_pretty depth closing (m :: ms) (List.cons_ne_nil _ _))
end

/-- What is written for a value is one of its texts. -/
theorem isTextOf_text (v : Value) : IsTextOf v.text v.datum := by
  refine ⟨v.text.toList, [], .nothing, ?_, .nothing⟩
  have written := writes_pretty 0 [] v
  rwa [List.append_nil] at written

end TypeClosure.Json.Value

import TypeClosure.Proofs.Json.Skipping
import TypeClosure.Proofs.Json.Writing

/-! A text is a text of one JSON value only, so what is written for a value determines it. -/

namespace TypeClosure.Json

open Reader

variable {t t₁ t₂ s₁ s₂ r r₁ r₂ cs₁ cs₂ : List Char} {c c₁ c₂ : Char} {d d' : Datum}

/-! ### Marks, strings and numbers -/

theorem Blank.behind_eq (first : Blank t (c₁ :: r₁)) (second : Blank t (c₂ :: r₂))
    (starts₁ : isSpace c₁ = false) (starts₂ : isSpace c₂ = false) : c₁ = c₂ ∧ r₁ = r₂ := by
  have same := (dropWhile_isSpace_of_blank first starts₁).symm.trans
    (dropWhile_isSpace_of_blank second starts₂)
  exact List.cons.inj same

theorem Content.unambiguous (first : Content t cs₁ r₁) (second : Content t cs₂ r₂) :
    cs₁ = cs₂ ∧ r₁ = r₂ := by
  have enough := Nat.lt_succ_self t.length
  have same := (stringUpTo_of_content first enough).symm.trans (stringUpTo_of_content second enough)
  exact Prod.mk.inj (Except.ok.inj same)

theorem Name.unambiguous {name₁ name₂ : String} (first : Name t name₁ r₁)
    (second : Name t name₂ r₂) : name₁ = name₂ ∧ r₁ = r₂ := by
  obtain ⟨quote₁, content₁, colon₁⟩ := first
  obtain ⟨quote₂, content₂, colon₂⟩ := second
  obtain ⟨-, rfl⟩ := quote₁.behind_eq quote₂ rfl rfl
  obtain ⟨rfl, rfl⟩ := content₁.unambiguous content₂
  obtain ⟨-, rfl⟩ := colon₁.behind_eq colon₂ rfl rfl
  exact ⟨rfl, rfl⟩

/-- What stands behind a value is told by the text in front of it. -/
theorem Writes.rest_eq (first : Writes t d r₁) (second : Writes t d' r₂) (ended₁ : Ended r₁)
    (ended₂ : Ended r₂) : r₁ = r₂ := by
  have same := (skipValue_of_writes .nothing first ended₁).symm.trans
    (skipValue_of_writes .nothing second ended₂)
  exact (Prod.mk.inj (Except.ok.inj same)).2

/-! ### The first character tells the kind of a value -/

inductive Kind where
  | null
  | bool (value : Bool)
  | number
  | string
  | array
  | object
deriving DecidableEq

def Datum.kind : Datum → Kind
  | .null => .null
  | .bool value => .bool value
  | .number _ => .number
  | .string _ => .string
  | .array _ => .array
  | .object _ => .object

/-- The kind of a value whose text starts with a character. -/
def kindAt (c : Char) : Kind :=
  if c = 'n' then .null
  else if c = 't' then .bool true
  else if c = 'f' then .bool false
  else if c = '"' then .string
  else if c = '[' then .array
  else if c = '\x7b' then .object
  else .number

theorem kindAt_of_isDigit (digit : c.isDigit = true) : kindAt c = .number := by
  have other {e : Char} (mark : e.isDigit = false) : c ≠ e := fun same => by
    rw [same, mark] at digit
    contradiction
  simp only [kindAt, other (e := 'n') rfl, other (e := 't') rfl, other (e := 'f') rfl,
    other (e := '"') rfl, other (e := '[') rfl, other (e := '\x7b') rfl, if_false]

theorem Writes.kind_eq (written : Writes t d r) : t.head?.map kindAt = some d.kind := by
  cases written with
  | number literal =>
      cases literal with
      | positive magnitude =>
          obtain ⟨digit, ds, rfl, isDigit⟩ := magnitude.exists_digit
          exact congrArg some (kindAt_of_isDigit isDigit)
      | negative _ => rfl
  | _ => rfl

theorem Writes.same_kind (first : Writes t d r₁) (second : Writes t d' r₂) : d.kind = d'.kind :=
  Option.some.inj (first.kind_eq.symm.trans second.kind_eq)

/-! ### Values -/

theorem Writes.exists_literal {text : String} (written : Writes t (.number text) r) :
    ∃ cs, t = cs ++ r ∧ text = String.ofList cs := by
  cases written with
  | number _ => exact ⟨_, rfl, rfl⟩

theorem Writes.exists_content {text : String} (written : Writes ('"' :: t) (.string text) r) :
    ∃ cs, text = String.ofList cs ∧ Content t cs r := by
  generalize same : '"' :: t = t' at written
  cases written with
  | string content =>
      cases same
      exact ⟨_, rfl, content⟩

theorem Writes.elements_or_none {ds : List Datum} (written : Writes ('[' :: t) (.array ds) r) :
    ds = [] ∧ Blank t (']' :: r) ∨ WritesElements t ds r := by
  generalize same : '[' :: t = t' at written
  cases written with
  | noElements closing =>
      cases same
      exact .inl ⟨rfl, closing⟩
  | elements written =>
      cases same
      exact .inr written

theorem Writes.members_or_none {ms : List (String × Datum)}
    (written : Writes ('\x7b' :: t) (.object ms) r) :
    ms = [] ∧ Blank t ('\x7d' :: r) ∨ WritesMembers t ms r := by
  generalize same : '\x7b' :: t = t' at written
  cases written with
  | noMembers closing =>
      cases same
      exact .inl ⟨rfl, closing⟩
  | members written =>
      cases same
      exact .inr written

theorem Blank.value_eq (first : Blank t t₁) (second : Blank t t₂)
    (written₁ : Writes t₁ d r₁) (written₂ : Writes t₂ d' r₂) : t₁ = t₂ := by
  obtain ⟨c₁, _, rfl, starts₁⟩ := written₁.exists_first
  obtain ⟨c₂, _, rfl, starts₂⟩ := written₂.exists_first
  obtain ⟨rfl, rfl⟩ :=
    first.behind_eq second (isSpace_of_starts starts₁) (isSpace_of_starts starts₂)
  rfl

/-- The mark behind a value inside others, and what stands behind it. -/
theorem Writes.mark_eq (first : Writes t₁ d s₁) (front₁ : Blank t t₁) (back₁ : Blank s₁ (c₁ :: r₁))
    (second : Writes t₂ d' s₂) (front₂ : Blank t t₂) (back₂ : Blank s₂ (c₂ :: r₂))
    (closing₁ : c₁ ∈ [',', ']', '\x7d']) (closing₂ : c₂ ∈ [',', ']', '\x7d']) :
    c₁ = c₂ ∧ r₁ = r₂ := by
  have all : ∀ c ∈ [',', ']', '\x7d'], isSpace c = false := by simp [isSpace]
  cases front₁.value_eq front₂ first second
  cases first.rest_eq second (ended_of_blank back₁ closing₁) (ended_of_blank back₂ closing₂)
  exact back₁.behind_eq back₂ (all _ closing₁) (all _ closing₂)

theorem WritesElements.not_closed {ds : List Datum} (written : WritesElements t ds r) :
    ¬ Blank t (']' :: r₁) := by
  intro closing
  obtain ⟨first, _, front, starts⟩ := written.exists_first
  obtain ⟨rfl, -⟩ := front.behind_eq closing (isSpace_of_starts starts) rfl
  exact starts (by decide)

theorem WritesMembers.not_closed {ms : List (String × Datum)} (written : WritesMembers t ms r) :
    ¬ Blank t ('\x7d' :: r₁) := by
  intro closing
  obtain ⟨_, front⟩ := written.exists_quote
  exact absurd (front.behind_eq closing rfl rfl).1 (by decide)

/-! The kinds agree at the first character and the ends by the reader, so that the induction on the
first text only compares what is inside. -/

mutual
theorem Writes.unambiguous {t r : List Char} {d : Datum} : Writes t d r →
    ∀ {d' : Datum} {r' : List Char}, Writes t d' r' → Ended r → Ended r' → d = d'
  | .null, d', _, second, _, _ => by
      have kind := Writes.null.same_kind second
      cases d' <;> first | rfl | contradiction
  | .yes, d', _, second, _, _ => by
      have kind := Writes.yes.same_kind second
      cases d' with
      | bool _ => exact congrArg Datum.bool (Kind.bool.inj kind)
      | _ => contradiction
  | .no, d', _, second, _, _ => by
      have kind := Writes.no.same_kind second
      cases d' with
      | bool _ => exact congrArg Datum.bool (Kind.bool.inj kind)
      | _ => contradiction
  | .number literal, d', r', second, ended, ended' => by
      have kind := (Writes.number literal).same_kind second
      cases (Writes.number literal).rest_eq second ended ended'
      cases d' with
      | number _ =>
          obtain ⟨cs, same, rfl⟩ := second.exists_literal
          rw [List.append_cancel_right same]
      | _ => contradiction
  | .string content, d', r', second, _, _ => by
      have kind := (Writes.string content).same_kind second
      cases d' with
      | string _ =>
          obtain ⟨cs, rfl, content'⟩ := second.exists_content
          rw [(content.unambiguous content').1]
      | _ => contradiction
  | .noElements closing, d', r', second, _, _ => by
      have kind := (Writes.noElements closing).same_kind second
      cases d' with
      | array _ =>
          obtain ⟨rfl, -⟩ | written := second.elements_or_none
          · rfl
          · exact absurd closing written.not_closed
      | _ => contradiction
  | .elements written, d', r', second, _, _ => by
      have kind := (Writes.elements written).same_kind second
      cases d' with
      | array _ =>
          obtain ⟨-, closing⟩ | written' := second.elements_or_none
          · exact absurd closing written.not_closed
          · rw [written.unambiguous written']
      | _ => contradiction
  | .noMembers closing, d', r', second, _, _ => by
      have kind := (Writes.noMembers closing).same_kind second
      cases d' with
      | object _ =>
          obtain ⟨rfl, -⟩ | written := second.members_or_none
          · rfl
          · exact absurd closing written.not_closed
      | _ => contradiction
  | .members written, d', r', second, _, _ => by
      have kind := (Writes.members written).same_kind second
      cases d' with
      | object _ =>
          obtain ⟨-, closing⟩ | written' := second.members_or_none
          · exact absurd closing written.not_closed
          · rw [written.unambiguous written']
      | _ => contradiction

theorem WritesElements.unambiguous {t r : List Char} {ds : List Datum} : WritesElements t ds r →
    ∀ {ds' : List Datum} {r' : List Char}, WritesElements t ds' r' → ds = ds'
  | .last front written back, _, _, .last front' written' back' => by
      cases front.value_eq front' written written'
      rw [written.unambiguous written' (ended_of_blank back (by decide))
        (ended_of_blank back' (by decide))]
  | .last front written back, _, _, .cons front' written' back' _ => by
      have mark := written.mark_eq front back written' front' back' (by decide) (by decide)
      exact absurd mark.1 (by decide)
  | .cons front written back _, _, _, .last front' written' back' => by
      have mark := written.mark_eq front back written' front' back' (by decide) (by decide)
      exact absurd mark.1 (by decide)
  | .cons front written back others, _, _, .cons front' written' back' others' => by
      obtain ⟨-, rfl⟩ := written.mark_eq front back written' front' back' (by decide) (by decide)
      cases front.value_eq front' written written'
      rw [written.unambiguous written' (ended_of_blank back (by decide))
        (ended_of_blank back' (by decide)), others.unambiguous others']

theorem WritesMembers.unambiguous {t r : List Char} {ms : List (String × Datum)} :
    WritesMembers t ms r →
    ∀ {ms' : List (String × Datum)} {r' : List Char}, WritesMembers t ms' r' → ms = ms'
  | .last named front written back, _, _, .last named' front' written' back' => by
      obtain ⟨rfl, rfl⟩ := named.unambiguous named'
      cases front.value_eq front' written written'
      rw [written.unambiguous written' (ended_of_blank back (by decide))
        (ended_of_blank back' (by decide))]
  | .last named front written back, _, _, .cons named' front' written' back' _ => by
      obtain ⟨-, rfl⟩ := named.unambiguous named'
      have mark := written.mark_eq front back written' front' back' (by decide) (by decide)
      exact absurd mark.1 (by decide)
  | .cons named front written back _, _, _, .last named' front' written' back' => by
      obtain ⟨-, rfl⟩ := named.unambiguous named'
      have mark := written.mark_eq front back written' front' back' (by decide) (by decide)
      exact absurd mark.1 (by decide)
  | .cons named front written back others, _, _, .cons named' front' written' back' others' => by
      obtain ⟨rfl, rfl⟩ := named.unambiguous named'
      obtain ⟨-, rfl⟩ := written.mark_eq front back written' front' back' (by decide) (by decide)
      cases front.value_eq front' written written'
      rw [written.unambiguous written' (ended_of_blank back (by decide))
        (ended_of_blank back' (by decide)), others.unambiguous others']
end

theorem ended_of_end (blank : Blank r []) : Ended r := by
  generalize rest : ([] : List Char) = t at blank
  cases blank with
  | nothing =>
      rw [← rest]
      rintro c ⟨⟩
  | more space _ =>
      rintro c ⟨⟩
      exact List.mem_append_left [',', ']', '\x7d'] space

/-- No text is a text of two values. -/
theorem IsTextOf.unambiguous {text : String} (first : IsTextOf text d) (second : IsTextOf text d') :
    d = d' := by
  obtain ⟨t, r, front, written, back⟩ := first
  obtain ⟨t', r', front', written', back'⟩ := second
  cases front.value_eq front' written written'
  exact written.unambiguous written' (ended_of_end back) (ended_of_end back')

namespace Value

theorem ofDigitChars_toString (n : Nat) : Nat.ofDigitChars 10 (toString n).toList 0 = n := by
  change Nat.ofDigitChars 10 n.repr.toList 0 = n
  rw [Nat.toList_repr, Nat.ofDigitChars_toDigits (by decide) (by decide)]

mutual
theorem datum_injective : ∀ {v w : Value}, v.datum = w.datum → v = w
  | .bool _, .bool _, same => congrArg _ (Datum.bool.inj same)
  | .number m, .number n, same => by
      have written : toString m = toString n := Datum.number.inj same
      rw [← ofDigitChars_toString m, written, ofDigitChars_toString n]
  | .string _, .string _, same => congrArg _ (Datum.string.inj same)
  | .array _, .array _, same => congrArg _ (elementData_injective (Datum.array.inj same))
  | .object _, .object _, same => congrArg _ (memberData_injective (Datum.object.inj same))

theorem elementData_injective : ∀ {vs ws : List Value}, elementData vs = elementData ws → vs = ws
  | [], [], _ => rfl
  | v :: vs, w :: ws, same => by
      obtain ⟨first, others⟩ := List.cons.inj same
      rw [datum_injective first, elementData_injective others]

theorem memberData_injective : ∀ {ms ns : List (String × Value)},
    memberData ms = memberData ns → ms = ns
  | [], [], _ => rfl
  | (name, v) :: ms, (name', w) :: ns, same => by
      obtain ⟨first, others⟩ := List.cons.inj same
      obtain ⟨rfl, value⟩ := Prod.mk.inj first
      rw [datum_injective value, memberData_injective others]
end

theorem text_injective : Function.Injective text := fun v w same =>
  datum_injective (v.isTextOf_text.unambiguous (same ▸ w.isTextOf_text))

end Value

end TypeClosure.Json

import Mathlib.Data.List.Forall2
import TypeClosure.Proofs.Json.Unambiguous
import TypeClosure.Report.Data

/-!
What a closure tree has in JSON. Two trees with equal values differ at most in what other modules call
forwarded names: everything else can be read off, at every depth, also where members are left out.
-/

namespace TypeClosure

open Json

namespace Json.Value

/-- Values that are equal. Members of objects are found by their names, so their order is of no
account. -/
inductive Same : Value → Value → Prop
  | bool {b : Bool} : Same (.bool b) (.bool b)
  | number {n : Nat} : Same (.number n) (.number n)
  | string {s : String} : Same (.string s) (.string s)
  | array {vs ws : List Value} : List.Forall₂ Same vs ws → Same (.array vs) (.array ws)
  | object {ms ns : List (String × Value)} :
      (∀ name, Option.Rel Same (ms.lookup name) (ns.lookup name)) → Same (.object ms) (.object ns)

mutual
theorem Same.refl : ∀ v : Value, Same v v
  | .bool _ => .bool
  | .number _ => .number
  | .string _ => .string
  | .array vs => .array (Same.refl_elements vs)
  | .object ms => .object (Same.refl_members ms)

theorem Same.refl_elements : ∀ vs : List Value, List.Forall₂ Same vs vs
  | [] => .nil
  | v :: vs => .cons (Same.refl v) (Same.refl_elements vs)

theorem Same.refl_members : ∀ (ms : List (String × Value)) (name : String),
    Option.Rel Same (ms.lookup name) (ms.lookup name)
  | [], _ => .none
  | (other, v) :: ms, name => by
      rw [List.lookup_cons]
      split
      · exact .some (Same.refl v)
      · exact Same.refl_members ms name
end

theorem string_same_iff {s t : String} : Same (.string s) (.string t) ↔ s = t :=
  ⟨fun | .string => rfl, fun same => same ▸ .string⟩

theorem number_same_iff {m n : Nat} : Same (.number m) (.number n) ↔ m = n :=
  ⟨fun | .number => rfl, fun same => same ▸ .number⟩

theorem bool_same_iff {a b : Bool} : Same (.bool a) (.bool b) ↔ a = b :=
  ⟨fun | .bool => rfl, fun same => same ▸ .bool⟩

theorem Same.optional {ms ns : List (String × Value)} (same : Same (.object ms) (.object ns))
    (name : String) : Option.Rel Same (ms.lookup name) (ns.lookup name) := by
  cases same with
  | object members => exact members name

/-- Members of one name have equal values. -/
theorem Same.member {ms ns : List (String × Value)} (same : Same (.object ms) (.object ns))
    (name : String) {v w : Value} (inFirst : ms.lookup name = some v)
    (inSecond : ns.lookup name = some w) : Same v w := by
  have both := same.optional name
  rw [inFirst, inSecond] at both
  cases both with
  | some same => exact same

/-- If what is written of a thing tells something about it, then what is written of a list tells the
same about its elements. -/
theorem map_eq_of_same {α β : Type} {toValue : α → Value} {part : α → β}
    (tells : ∀ a b, Same (toValue a) (toValue b) → part a = part b) {as bs : List α}
    (same : Same (.array (as.map toValue)) (.array (bs.map toValue))) :
    as.map part = bs.map part := by
  cases same with
  | array same =>
      rw [List.forall₂_map_left_iff, List.forall₂_map_right_iff] at same
      rw [← List.forall₂_eq_eq_eq, List.forall₂_map_left_iff, List.forall₂_map_right_iff]
      exact same.imp tells

theorem strings_eq_of_same {as bs : List String} (same : Same (strings as) (strings bs)) :
    as = bs := by
  have equal : as.map id = bs.map id := map_eq_of_same (fun _ _ => string_same_iff.mp) same
  rwa [List.map_id, List.map_id] at equal

theorem lookup_unlessEmpty_of_ne {name other : String} {vs : List Value}
    (different : name ≠ other) : (unlessEmpty other vs).lookup name = none := by
  rw [unlessEmpty]
  split
  · rfl
  · rw [List.lookup_cons, beq_false_of_ne different]
    rfl

theorem lookup_unlessEmpty_cons (name : String) (v : Value) (vs : List Value) :
    (unlessEmpty name (v :: vs)).lookup name = some (.array (v :: vs)) := by
  rw [unlessEmpty, List.isEmpty_cons, if_neg Bool.false_ne_true, List.lookup_cons_self]

theorem forall₂_of_unlessEmpty {name : String} {vs ws : List Value}
    (same : Option.Rel Same ((unlessEmpty name vs).lookup name) ((unlessEmpty name ws).lookup name)) :
    List.Forall₂ Same vs ws := by
  -- An empty list is told from any other: the member is not there at all.
  cases vs with
  | nil =>
      cases ws with
      | nil => exact .nil
      | cons w ws =>
          rw [lookup_unlessEmpty_cons] at same
          contradiction
  | cons v vs =>
      rw [lookup_unlessEmpty_cons] at same
      cases ws with
      | nil => contradiction
      | cons w ws =>
          rw [lookup_unlessEmpty_cons] at same
          cases same with
          | some same =>
              cases same with
              | array same => exact same

end Json.Value

/-! ### The parts of a closure -/

open Json.Value

theorem TypeKind.jsonName_injective : Function.Injective TypeKind.jsonName := by
  intro k l same
  cases k <;> cases l <;> first | rfl | exact absurd same (by decide)

theorem ClosureEntry.eq_of_same (e e' : ClosureEntry) (same : Same e.toJson e'.toJson) : e = e' := by
  have name := string_same_iff.mp (same.member "name" rfl rfl)
  have kind := string_same_iff.mp (same.member "kind" rfl rfl)
  have line := number_same_iff.mp (same.member "line" rfl rfl)
  have exported := bool_same_iff.mp (same.member "exported" rfl rfl)
  cases e
  cases e'
  simp_all [TypeKind.jsonName_injective.eq_iff]

/-- The statement as far as it does not matter what the module calls the names. -/
def Reexport.withoutOrigins (r : Reexport) : Reexport :=
  ⟨r.module, r.names.map fun name => ⟨name, ""⟩⟩

theorem Reexport.withoutOrigins_eq_of_same (r r' : Reexport) (same : Same r.toJson r'.toJson) :
    r.withoutOrigins = r'.withoutOrigins := by
  have module := string_same_iff.mp (same.member "module" rfl rfl)
  have names := strings_eq_of_same (same.member "names" rfl rfl)
  rw [Reexport.withoutOrigins, Reexport.withoutOrigins, module, names]

theorem Reexport.toJson_withoutOrigins (r : Reexport) : r.withoutOrigins.toJson = r.toJson := by
  simp [Reexport.toJson, Reexport.withoutOrigins, Reexport.names, Function.comp_def]

/-- The closure with its statements as far as it does not matter what modules call names. -/
def Closure.withoutOrigins (c : Closure) : Closure :=
  { c with reexports := c.reexports.map Reexport.withoutOrigins }

theorem Closure.jsonMembers_withoutOrigins (c : Closure) :
    c.withoutOrigins.jsonMembers = c.jsonMembers := by
  simp [Closure.jsonMembers, Closure.withoutOrigins, Function.comp_def,
    Reexport.toJson_withoutOrigins]

/-! ### Trees -/

namespace ClosureTree

mutual
/-- The tree as far as it does not matter what modules call forwarded names. -/
def withoutOrigins : ClosureTree → ClosureTree
  | .node own unresolved followed =>
      .node own.withoutOrigins unresolved (allWithoutOrigins followed)

def allWithoutOrigins : List ClosureTree → List ClosureTree
  | [] => []
  | t :: ts => t.withoutOrigins :: allWithoutOrigins ts
end

mutual
theorem jsonMembers_withoutOrigins : ∀ t : ClosureTree, t.withoutOrigins.jsonMembers = t.jsonMembers
  | .node own unresolved followed => by
      rw [withoutOrigins, jsonMembers, jsonMembers, own.jsonMembers_withoutOrigins,
        allToJson_allWithoutOrigins followed]

theorem allToJson_allWithoutOrigins :
    ∀ ts : List ClosureTree, allToJson (allWithoutOrigins ts) = allToJson ts
  | [] => rfl
  | t :: ts => by
      rw [allWithoutOrigins, allToJson, allToJson, jsonMembers_withoutOrigins t,
        allToJson_allWithoutOrigins ts]
end

section

variable {own own' : Closure} {unresolved unresolved' : List String}
  {followed followed' : List ClosureTree}

theorem lookup_own {name : String} {v : Value} (found : own.jsonMembers.lookup name = some v) :
    (jsonMembers (.node own unresolved followed)).lookup name = some v := by
  rw [jsonMembers, List.append_assoc, List.lookup_append, found, Option.some_or]

theorem lookup_followed :
    (jsonMembers (.node own unresolved followed)).lookup "followed" =
      (unlessEmpty "followed" (allToJson followed)).lookup "followed" := by
  have front : own.jsonMembers.lookup "followed" = none := rfl
  have back : (unlessEmpty "unresolvedModules" (unresolved.map .string)).lookup "followed" = none :=
    lookup_unlessEmpty_of_ne (by decide)
  rw [jsonMembers, List.lookup_append, List.lookup_append, front, back, Option.none_or,
    Option.or_none]

theorem lookup_unresolved :
    (jsonMembers (.node own unresolved followed)).lookup "unresolvedModules" =
      (unlessEmpty "unresolvedModules" (unresolved.map .string)).lookup "unresolvedModules" := by
  have front : own.jsonMembers.lookup "unresolvedModules" = none := rfl
  rw [jsonMembers, List.lookup_append, List.lookup_append, front, Option.none_or,
    lookup_unlessEmpty_of_ne (by decide), Option.none_or]

/-- The parts of two trees with equal values. -/
theorem same_parts
    (same : Same (.object (jsonMembers (.node own unresolved followed)))
      (.object (jsonMembers (.node own' unresolved' followed')))) :
    own.withoutOrigins = own'.withoutOrigins ∧ unresolved = unresolved' ∧
      List.Forall₂ Same (allToJson followed) (allToJson followed') := by
  have file := string_same_iff.mp (same.member "file" (lookup_own rfl) (lookup_own rfl))
  have roots := strings_eq_of_same (same.member "roots" (lookup_own rfl) (lookup_own rfl))
  have declarations : own.declarations.map id = own'.declarations.map id :=
    map_eq_of_same ClosureEntry.eq_of_same
      (same.member "declarations" (lookup_own rfl) (lookup_own rfl))
  have external := strings_eq_of_same (same.member "external" (lookup_own rfl) (lookup_own rfl))
  have reexports := map_eq_of_same Reexport.withoutOrigins_eq_of_same
    (same.member "reexports" (lookup_own rfl) (lookup_own rfl))
  have missing := strings_eq_of_same (same.member "missingRoots" (lookup_own rfl) (lookup_own rfl))
  rw [List.map_id, List.map_id] at declarations
  have unresolvedSame := same.optional "unresolvedModules"
  have followedSame := same.optional "followed"
  rw [lookup_unresolved, lookup_unresolved] at unresolvedSame
  rw [lookup_followed, lookup_followed] at followedSame
  refine ⟨?_, strings_eq_of_same (.array (forall₂_of_unlessEmpty unresolvedSame)),
    forall₂_of_unlessEmpty followedSame⟩
  cases own
  cases own'
  simp only [Closure.withoutOrigins, Closure.mk.injEq]
  exact ⟨file, roots, declarations, external, reexports, missing⟩

end

mutual
theorem withoutOrigins_eq_of_same : ∀ t t' : ClosureTree,
    Same (.object t.jsonMembers) (.object t'.jsonMembers) → t.withoutOrigins = t'.withoutOrigins
  | .node own unresolved followed, .node own' unresolved' followed', same => by
      obtain ⟨owns, unresolveds, followeds⟩ := same_parts same
      rw [withoutOrigins, withoutOrigins, owns, unresolveds,
        allWithoutOrigins_eq_of_same followed followed' followeds]

theorem allWithoutOrigins_eq_of_same : ∀ ts ts' : List ClosureTree,
    List.Forall₂ Same (allToJson ts) (allToJson ts') →
      allWithoutOrigins ts = allWithoutOrigins ts'
  | [], [], _ => rfl
  | t :: ts, t' :: ts', .cons same others => by
      rw [allWithoutOrigins, allWithoutOrigins, withoutOrigins_eq_of_same t t' same,
        allWithoutOrigins_eq_of_same ts ts' others]
end

theorem toJson_eq_of_withoutOrigins {t t' : ClosureTree}
    (same : t.withoutOrigins = t'.withoutOrigins) : t.toJson = t'.toJson := by
  rw [toJson, toJson, ← t.jsonMembers_withoutOrigins, same, t'.jsonMembers_withoutOrigins]

/-- Two trees have equal values, and so the same text, exactly if they differ at most in what other
modules call forwarded names. -/
theorem json_determines_tree (t t' : ClosureTree) :
    (Same t.toJson t'.toJson ↔ t.withoutOrigins = t'.withoutOrigins) ∧
      (t.toJson.text = t'.toJson.text ↔ t.withoutOrigins = t'.withoutOrigins) := by
  have told : Same t.toJson t'.toJson → t.withoutOrigins = t'.withoutOrigins :=
    withoutOrigins_eq_of_same t t'
  refine ⟨⟨told, fun same => ?_⟩, fun same => told ?_, fun same => ?_⟩
  · rw [toJson_eq_of_withoutOrigins same]
    exact .refl _
  · rw [text_injective same]
    exact .refl _
  · rw [toJson_eq_of_withoutOrigins same]

end ClosureTree

end TypeClosure

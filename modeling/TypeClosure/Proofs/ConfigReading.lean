import TypeClosure.Config.Json
import TypeClosure.Proofs.Json.Skipping
import TypeClosure.Proofs.Json.Writing

/-!
Reading configurations. What is read depends only on the members that have a meaning: neither their
order, nor the layout of the text, nor any other member makes a difference, and members that are left
out have their defaults.
-/

namespace TypeClosure

open Json

namespace Config

/-- The names that have a meaning. -/
def memberNames : List String := ["roots", "externals", "followReexports", "moduleExtensions"]

/-- The members of a configuration, each with its value. -/
def members (c : Config) : List (String × Datum) :=
  [("roots", .array (c.roots.map .string)), ("externals", .array (c.externals.map .string)),
    ("followReexports", .bool c.followReexports),
    ("moduleExtensions", .array (c.moduleExtensions.map .string))]

/-- Members that have a meaning have their values from a configuration, and none of them comes twice.
Other members may have any values. -/
structure Allows (c : Config) (ms : List (String × Datum)) : Prop where
  value : ∀ m ∈ ms, ∀ d ∈ c.members.lookup m.1, m.2 = d
  once : ∀ name ∈ memberNames, (ms.map Prod.fst).count name ≤ 1

/-- The configuration, with its default for each member that is not named. -/
def keeping (c : Config) (names : List String) : Config where
  roots := if "roots" ∈ names then c.roots else []
  externals := if "externals" ∈ names then c.externals else []
  followReexports := if "followReexports" ∈ names then c.followReexports else false
  moduleExtensions :=
    if "moduleExtensions" ∈ names then c.moduleExtensions else [".ts", ".tsx", ".d.ts"]

theorem keeping_memberNames (c : Config) : c.keeping memberNames = c := by
  simp [keeping, memberNames]

end Config

namespace ConfigMembers

open Reader Config

/-- The named members of a configuration. -/
def ofNames (c : Config) (names : List String) : ConfigMembers where
  roots := if "roots" ∈ names then some c.roots else none
  externals := if "externals" ∈ names then some c.externals else none
  followReexports := if "followReexports" ∈ names then some c.followReexports else none
  moduleExtensions := if "moduleExtensions" ∈ names then some c.moduleExtensions else none

theorem config_ofNames (c : Config) (names : List String) :
    (ofNames c names).config = c.keeping names := by
  simp only [config, ofNames, keeping]
  congr 1 <;> split <;> rfl

variable {c : Config} {t t₁ t₂ r : List Char} {d : Datum} {name : String} {seen : List String}

theorem run_once {α : Type} {value : Reader α} {datum : α → Datum} (reads : Reads value datum)
    {a : α} (colon : Blank t (':' :: t₁)) (blank : Blank t₁ t₂) (written : Writes t₂ (datum a) r) :
    (once none value).run t = .ok (some a, r) := by
  rw [once, Option.isSome_none, if_neg Bool.false_ne_true]
  exact (run_bind_of_ok (expect_of_blank colon rfl) _).trans
    (run_bind_of_ok (reads a blank written) _)

theorem fresh_of_count {α : Type} [DecidableEq α] {a : α} {as bs names : List α}
    (once : ∀ b ∈ names, (as ++ a :: bs).count b ≤ 1) (known : a ∈ names) : a ∉ as := by
  intro member
  have := once a known
  have := List.count_pos_iff.mpr member
  rw [List.count_append, List.count_cons_self] at *
  omega

/-- One member is taken in: with its value if it has a meaning, and without effect otherwise. -/
theorem run_take (value : ∀ d' ∈ c.members.lookup name, d = d')
    (fresh : name ∈ memberNames → name ∉ seen) (colon : Blank t (':' :: t₁))
    (blank : Blank t₁ t₂) (written : Writes t₂ d r) (ended : Ended r) :
    ((ofNames c seen).take name).run t = .ok (ofNames c (seen ++ [name]), r) := by
  have strings := reads_string.array
  -- A case for each name that has a meaning, and one for all others.
  unfold take
  split
  · cases value _ rfl
    have old : (ofNames c seen).roots = none := if_neg (fresh (by decide))
    have all : ofNames c (seen ++ ["roots"]) =
        { ofNames c seen with roots := some c.roots } := by simp [ofNames]
    rw [old, run_bind_of_ok (run_once strings colon blank written), all]
    rfl
  · cases value _ rfl
    have old : (ofNames c seen).externals = none := if_neg (fresh (by decide))
    have all : ofNames c (seen ++ ["externals"]) =
        { ofNames c seen with externals := some c.externals } := by simp [ofNames]
    rw [old, run_bind_of_ok (run_once strings colon blank written), all]
    rfl
  · cases value _ rfl
    have old : (ofNames c seen).followReexports = none := if_neg (fresh (by decide))
    have all : ofNames c (seen ++ ["followReexports"]) =
        { ofNames c seen with followReexports := some c.followReexports } := by simp [ofNames]
    rw [old, run_bind_of_ok (run_once reads_bool colon blank written), all]
    rfl
  · cases value _ rfl
    have old : (ofNames c seen).moduleExtensions = none := if_neg (fresh (by decide))
    have all : ofNames c (seen ++ ["moduleExtensions"]) =
        { ofNames c seen with moduleExtensions := some c.moduleExtensions } := by simp [ofNames]
    rw [old, run_bind_of_ok (run_once strings colon blank written), all]
    rfl
  · rename_i roots externals followReexports moduleExtensions
    have all : ofNames c (seen ++ [name]) = ofNames c seen := by
      simp [ofNames, Ne.symm roots, Ne.symm externals, Ne.symm followReexports,
        Ne.symm moduleExtensions]
    rw [run_bind_of_ok (expect_of_blank colon rfl),
      run_bind_of_ok (skipValue_of_writes blank written ended), all]
    rfl

section

variable {t₀ : List Char} {n : Nat} {first : Bool}

theorem readUpTo_member (value : ∀ d' ∈ c.members.lookup name, d = d')
    (fresh : name ∈ memberNames → name ∉ seen) (reached : Reached first t₀ t)
    (named : Name t name t₁) (blank : Blank t₁ t₂) (written : Writes t₂ d r) (ended : Ended r) :
    (readUpTo (n + 1) first (ofNames c seen)).run t₀ =
      (readUpTo n false (ofNames c (seen ++ [name]))).run r := by
  obtain ⟨quote, content, colon⟩ := named
  rw [readUpTo, run_bind_of_ok (hasMember_of_reached reached quote), if_pos rfl,
    run_bind_of_ok (skip_cons _ _), run_bind_of_ok (stringBody_of_content content),
    run_bind_of_ok (run_take value fresh colon blank written ended)]

theorem readUpTo_close (blank : Blank t ('\x7d' :: r)) (m : ConfigMembers) :
    (readUpTo (n + 1) first m).run t = .ok (m, '\x7d' :: r) := by
  rw [readUpTo, run_bind_of_ok (hasMember_of_close blank)]
  rfl

end

/-- The members of an object are taken in after those that have been seen, if so many are read that
the text cannot hold more. -/
theorem readUpTo_of_members (seen : List String) {ms : List (String × Datum)}
    (written : WritesMembers t ms r) (value : ∀ m ∈ ms, ∀ d ∈ c.members.lookup m.1, m.2 = d)
    (once : ∀ name ∈ memberNames, (seen ++ ms.map Prod.fst).count name ≤ 1)
    {t₀ : List Char} {n : Nat} {first : Bool} (reached : Reached first t₀ t)
    (enough : t₀.length < n) :
    (readUpTo n first (ofNames c seen)).run t₀ =
      .ok (ofNames c (seen ++ ms.map Prod.fst), '\x7d' :: r) := by
  induction n generalizing t ms seen t₀ first with
  | zero => exact absurd enough (Nat.not_lt_zero _)
  | succ n ih =>
      have := reached.length_le
      cases written with
      | last named blank written back =>
          have := named.length_lt
          obtain ⟨n, rfl⟩ : ∃ m, n = m + 1 := ⟨n - 1, by omega⟩
          rw [readUpTo_member (value _ List.mem_cons_self) (fresh_of_count once) reached named blank
            written (ended_of_blank back (by decide)), readUpTo_close back]
          rfl
      | @cons _ _ _ _ _ _ name d ms named blank written back others =>
          have := named.length_lt
          have := blank.length_le
          have := written.length_lt
          have all : seen ++ ((name, d) :: ms).map Prod.fst = seen ++ [name] ++ ms.map Prod.fst :=
            List.append_cons seen name _
          rw [readUpTo_member (value _ List.mem_cons_self) (fresh_of_count once) reached named blank
            written (ended_of_blank back (by decide)), all]
          rw [all] at once
          exact ih (seen ++ [name]) others (fun m member => value m (List.mem_cons_of_mem _ member))
            once (.behind back) (by omega)

theorem read_of_writes {ms : List (String × Datum)} (allows : c.Allows ms) (blank : Blank t₁ t)
    (written : Writes t (.object ms) r) :
    read.run t₁ = .ok (ofNames c (ms.map Prod.fst), r) := by
  have opened {t : List Char} (blank : Blank t₁ ('\x7b' :: t))
      (ran : (readUpTo (t.length + 1) true {}).run t =
        .ok (ofNames c (ms.map Prod.fst), '\x7d' :: r)) :
      read.run t₁ = .ok (ofNames c (ms.map Prod.fst), r) := by
    rw [read, run_bind_of_ok (start_of_blank blank rfl), if_pos (by decide),
      run_bind_of_ok (skip_cons _ _), run_bind_of_ok (get_run _), run_bind_of_ok ran,
      run_bind_of_ok (expect_of_blank .nothing rfl)]
    rfl
  cases written with
  | noMembers closing => exact opened blank (readUpTo_close closing _)
  | members written =>
      exact opened blank (readUpTo_of_members [] written allows.value allows.once .first
        (Nat.lt_succ_self _))

end ConfigMembers

namespace Config

theorem ofJson_of_isTextOf {c : Config} {text : String} {ms : List (String × Datum)}
    (written : IsTextOf text (.object ms)) (allows : c.Allows ms) :
    ofJson text = .ok (c.keeping (ms.map Prod.fst)) := by
  obtain ⟨t, r, front, written, back⟩ := written
  have ended : (r.dropWhile Reader.isSpace).isEmpty = true := by
    rw [Reader.dropWhile_isSpace_congr back]
    rfl
  rw [ofJson, Reader.whole, ConfigMembers.read_of_writes allows front written]
  change Except.map _ (if _ then _ else _) = _
  rw [if_pos ended, ← ConfigMembers.config_ofNames]
  rfl

theorem datum_toJson (c : Config) : c.toJson.datum = .object c.members := by
  simp only [toJson, Value.datum, Value.memberData, Value.datum_strings, members]

theorem allows_members (c : Config) : c.Allows c.members where
  value := by simp [members, List.lookup_cons]
  once := by simp [members, memberNames]

theorem ofJson_of_isTextOf_toJson {c : Config} {text : String}
    (written : IsTextOf text c.toJson.datum) : ofJson text = .ok c := by
  rw [datum_toJson] at written
  rw [ofJson_of_isTextOf written c.allows_members]
  exact congrArg _ c.keeping_memberNames

/-- A configuration is read from each text of an object with its members in any order, whatever the
other members are, and has its default for each member that is left out. Above all it is read from
what is written of it. -/
theorem read_from_members (c : Config) :
    (∀ (text : String) (ms : List (String × Datum)), IsTextOf text (.object ms) → c.Allows ms →
      ofJson text = .ok (c.keeping (ms.map Prod.fst))) ∧
    (∀ text : String, IsTextOf text c.toJson.datum → ofJson text = .ok c) ∧
    ofJson c.toJson.text = .ok c :=
  ⟨fun _ _ => ofJson_of_isTextOf, fun _ => ofJson_of_isTextOf_toJson,
    ofJson_of_isTextOf_toJson (Value.isTextOf_text _)⟩

theorem read_from_members_reordered :
    ofJson (Value.text (.object
      [("x", .array [.number 0, .object [("roots", .string "\n\"")]]),
        ("followReexports", .bool true), ("roots", .strings ["λ"])])) =
      .ok { roots := ["λ"], followReexports := true } := by
  have read :=
    read_from_members { roots := ["λ"], externals := ["*"], followReexports := true }
  refine (read.1 _ _ (Value.isTextOf_text _) ⟨?_, ?_⟩).trans ?_
  · simp [Value.memberData, Value.datum, Value.datum_strings, members, List.lookup_cons]
  · simp [Value.memberData, memberNames]
  · simp [Value.memberData, keeping]

end Config

end TypeClosure

import TypeClosure.FileTree.Path

/-! Texts cut at slashes, and put together again. -/

namespace TypeClosure.FileTree

theorem segments_ne_nil (cs : List Char) : segments cs ≠ [] := by
  cases cs with
  | nil => exact List.cons_ne_nil _ _
  | cons c cs =>
      simp only [segments]
      split
      · exact List.cons_ne_nil _ _
      · split
        · exact List.cons_ne_nil _ _
        · exact List.cons_ne_nil _ _

@[simp] theorem segments_nil : segments [] = [[]] := rfl

@[simp] theorem segments_slash (cs : List Char) : segments ('/' :: cs) = [] :: segments cs := rfl

theorem segments_cons {c : Char} (noSlash : c ≠ '/') {cs s : List Char} {ss : List (List Char)}
    (rest : segments cs = s :: ss) : segments (c :: cs) = (c :: s) :: ss := by
  rw [segments, if_neg noSlash, rest]

theorem segments_append_slash (cs ds : List Char) :
    segments (cs ++ '/' :: ds) = segments cs ++ segments ds := by
  induction cs with
  | nil => rfl
  | cons c cs ih =>
      by_cases slash : c = '/'
      · rw [slash, List.cons_append, segments_slash, segments_slash, ih, List.cons_append]
      · obtain ⟨s, ss, eq⟩ := List.exists_cons_of_ne_nil (segments_ne_nil cs)
        have whole : segments (cs ++ '/' :: ds) = s :: (ss ++ segments ds) := by
          rw [ih, eq, List.cons_append]
        rw [List.cons_append, segments_cons slash whole, segments_cons slash eq, List.cons_append]

theorem segments_of_noSlash {cs : List Char} (noSlash : '/' ∉ cs) : segments cs = [cs] := by
  induction cs with
  | nil => rfl
  | cons c cs ih =>
      have first : c ≠ '/' := fun same => noSlash (by simp [same])
      exact segments_cons first (ih fun member => noSlash (List.mem_cons_of_mem _ member))

theorem noSlash_of_mem_segments {cs s : List Char} (member : s ∈ segments cs) : '/' ∉ s := by
  induction cs generalizing s with
  | nil =>
      rw [List.mem_singleton.mp member]
      exact List.not_mem_nil
  | cons c cs ih =>
      by_cases slash : c = '/'
      · rw [slash, segments_slash] at member
        rcases List.mem_cons.mp member with rfl | member
        · exact List.not_mem_nil
        · exact ih member
      · obtain ⟨first, rest, eq⟩ := List.exists_cons_of_ne_nil (segments_ne_nil cs)
        rw [segments_cons slash eq] at member
        rcases List.mem_cons.mp member with rfl | member
        · intro inside
          rcases List.mem_cons.mp inside with same | inside
          · exact slash same.symm
          · exact ih (by simp [eq]) inside
        · exact ih (by simp [eq, member])

theorem joinSegments_cons {s : List Char} {ss : List (List Char)} (more : ss ≠ []) :
    joinSegments (s :: ss) = s ++ '/' :: joinSegments ss := by
  cases ss with
  | nil => contradiction
  | cons t ts =>
      rw [joinSegments]
      exact List.cons_ne_nil _ _

theorem segments_joinSegments {ss : List (List Char)} (nonempty : ss ≠ [])
    (noSlash : ∀ s ∈ ss, '/' ∉ s) : segments (joinSegments ss) = ss := by
  induction ss with
  | nil => contradiction
  | cons s ss ih =>
      have first := segments_of_noSlash (noSlash s (by simp))
      cases ss with
      | nil => exact first
      | cons t ts =>
          have more : t :: ts ≠ [] := List.cons_ne_nil _ _
          rw [joinSegments_cons more, segments_append_slash, first,
            ih more fun r member => noSlash r (List.mem_cons_of_mem _ member)]
          rfl

theorem joinSegments_segments (cs : List Char) : joinSegments (segments cs) = cs := by
  induction cs with
  | nil => rfl
  | cons c cs ih =>
      by_cases slash : c = '/'
      · rw [slash, segments_slash, joinSegments_cons (segments_ne_nil cs), ih]
        rfl
      · obtain ⟨s, ss, eq⟩ := List.exists_cons_of_ne_nil (segments_ne_nil cs)
        rw [segments_cons slash eq]
        rw [eq] at ih
        cases ss with
        | nil => exact congrArg (List.cons c) ih
        | cons t ts =>
            rw [joinSegments_cons (List.cons_ne_nil _ _)] at ih ⊢
            exact congrArg (List.cons c) ih

theorem joinSegments_concat {ss : List (List Char)} (nonempty : ss ≠ []) (last : List Char) :
    joinSegments (ss ++ [last]) = joinSegments ss ++ '/' :: last := by
  induction ss with
  | nil => contradiction
  | cons s ss ih =>
      cases ss with
      | nil => rfl
      | cons t ts =>
          have more : t :: ts ≠ [] := List.cons_ne_nil _ _
          rw [List.cons_append, joinSegments_cons (by simp), ih more, joinSegments_cons more,
            List.append_assoc, List.cons_append]

/-- An ending without a slash is an ending of the last segment. -/
theorem isSuffix_iff_of_segments {cs ending last : List Char} {init : List (List Char)}
    (noSlash : '/' ∉ ending) (eq : segments cs = init ++ [last]) :
    ending <:+ cs ↔ ending <:+ last := by
  have whole := joinSegments_segments cs
  rw [eq] at whole
  cases init with
  | nil =>
      change last = cs at whole
      rw [whole]
  | cons s ss =>
      rw [joinSegments_concat (List.cons_ne_nil _ _)] at whole
      have slashed : '/' :: last <:+ cs := ⟨_, whole⟩
      have tail : last <:+ cs := (List.suffix_cons _ _).trans slashed
      constructor
      · intro ends
        rcases Nat.lt_or_ge last.length ending.length with longer | shorter
        · have inside := List.suffix_of_suffix_length_le slashed ends longer
          exact absurd (inside.mem List.mem_cons_self) noSlash
        · exact List.suffix_of_suffix_length_le ends tail shorter
      · intro ends
        exact ends.trans tail

end TypeClosure.FileTree

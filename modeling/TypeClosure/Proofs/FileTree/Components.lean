import TypeClosure.Proofs.FileTree.Parent

/-! The components of paths: a parent has all of them but the last one, and where a path leads to
depends on nothing else. -/

namespace TypeClosure.FileTree

namespace Path

theorem componentsOf_cons_empty {s : List Char} (empty : isEmptySegment s = true)
    (ss : List (List Char)) : componentsOf (s :: ss) = componentsOf ss := by
  rw [componentsOf_cons, if_pos empty]

theorem componentsOf_of_empty {ss : List (List Char)}
    (empty : ∀ s ∈ ss, isEmptySegment s = true) : componentsOf ss = [] := by
  induction ss with
  | nil => rfl
  | cons s ss ih =>
      rw [componentsOf_cons_empty (empty s (by simp))]
      exact ih fun r member => empty r (List.mem_cons_of_mem _ member)

theorem exists_component {s : List Char} (named : isEmptySegment s = false) :
    ∃ c, c ≠ .root ∧ componentsOf [s] = [c] := by
  rw [componentsOf_cons, named, if_neg Bool.false_ne_true]
  split
  · exact ⟨.up, Component.noConfusion, rfl⟩
  · exact ⟨.name _, Component.noConfusion, rfl⟩

@[simp] theorem componentsOf_segments_slash (cs : List Char) :
    componentsOf (segments ('/' :: cs)) = componentsOf (segments cs) :=
  componentsOf_cons_empty rfl (segments cs)

theorem componentsOf_trimmed (ss : List (List Char)) :
    componentsOf (trimmed ss) = componentsOf ss := by
  obtain ⟨empties, eq, empty⟩ := trimmed_append ss
  conv => rhs; rw [eq, componentsOf_append, componentsOf_of_empty empty, List.append_nil]

theorem componentsOf_segments_joinSegments {ss : List (List Char)}
    (noSlash : ∀ s ∈ ss, '/' ∉ s) :
    componentsOf (segments (joinSegments ss)) = componentsOf ss := by
  cases ss with
  | nil => rfl
  | cons s ss => rw [segments_joinSegments (List.cons_ne_nil _ _) noSlash]

/-! ### Fronts -/

theorem components_slash (cs : List Char) :
    components (String.ofList ('/' :: cs)) = .root :: componentsOf (segments cs) := by
  rw [components_eq, String.toList_ofList, componentsOf_segments_slash, front, isAbsolute,
    String.toList_ofList]
  rfl

theorem components_dot_slash (cs : List Char) :
    components (String.ofList ('.' :: '/' :: cs)) = .here :: componentsOf (segments cs) := by
  have cut : segments ('.' :: '/' :: cs) = ['.'] :: segments cs :=
    segments_cons (by decide) (segments_slash cs)
  rw [components_eq, String.toList_ofList, cut, componentsOf_cons_empty rfl, front, isAbsolute,
    String.toList_ofList, cut]
  rfl

theorem components_plain {cs : List Char} (relative : cs.head? ≠ some '/')
    (undotted : (segments cs).head? ≠ some ['.']) :
    components (String.ofList cs) = componentsOf (segments cs) := by
  rw [components_eq, front, isAbsolute, String.toList_ofList, beq_eq_false_iff_ne.mpr relative,
    if_neg Bool.false_ne_true, if_neg undotted, List.nil_append]

/-! ### Parents -/

/-- What the parent of a path is: the segments before the last one that says something, or nothing
at all. -/
theorem parent?_cases {path : String} {lead body : List Char}
    (leads : Path.lead path.toList = (lead, body)) :
    (trimmed (segments body) = [] ∧
        parent? path = if lead = ['.'] then some "" else none) ∨
      ∃ init last, trimmed (segments body) = init ++ [last] ∧
        parent? path = some (String.ofList (lead ++ joinSegments (trimmed init))) := by
  rw [parent?, leads]
  cases kept : (segments body).reverse.dropWhile isEmptySegment with
  | nil =>
      refine .inl ⟨by rw [trimmed, kept, List.reverse_nil], ?_⟩
      simp [kept]
  | cons last others =>
      refine .inr ⟨others.reverse, last, by rw [trimmed, kept, List.reverse_cons], ?_⟩
      simp [kept, trimmed]

theorem segments_of_trimmed {cs last : List Char} {init : List (List Char)}
    (kept : trimmed (segments cs) = init ++ [last]) :
    ∃ empties, segments cs = init ++ last :: empties := by
  obtain ⟨empties, eq, _⟩ := trimmed_append (segments cs)
  exact ⟨empties, by rw [eq, kept, List.append_assoc, List.singleton_append]⟩

theorem noSlash_of_trimmed {cs last : List Char} {init : List (List Char)}
    (kept : trimmed (segments cs) = init ++ [last]) : ∀ s ∈ trimmed init, '/' ∉ s := by
  intro s member
  obtain ⟨empties, eq⟩ := segments_of_trimmed kept
  obtain ⟨others, above, _⟩ := trimmed_append init
  have inside : s ∈ segments cs := by
    rw [eq, above]
    simp [member]
  exact noSlash_of_mem_segments inside

/-- The last component is cut off with what follows it and says nothing. -/
theorem componentsOf_segments_of_trimmed {cs last : List Char} {init : List (List Char)}
    (kept : trimmed (segments cs) = init ++ [last]) :
    ∃ c, c ≠ .root ∧ componentsOf (segments cs) = componentsOf (trimmed init) ++ [c] := by
  have named : isEmptySegment last = false := getLast?_trimmed (by rw [kept, List.getLast?_concat])
  obtain ⟨c, proper, single⟩ := exists_component named
  refine ⟨c, proper, ?_⟩
  rw [← componentsOf_trimmed (segments cs), kept, componentsOf_append, single,
    componentsOf_trimmed]

theorem undotted_of_lead {cs : List Char} (leads : Path.lead cs = ([], cs)) :
    (segments cs).head? ≠ some ['.'] := by
  intro dotted
  obtain ⟨ss, cut⟩ := List.head?_eq_some_iff.mp dotted
  have whole := joinSegments_segments cs
  rw [cut] at whole
  cases ss with
  | nil =>
      rw [← whole] at leads
      exact absurd (congrArg Prod.fst leads) (List.cons_ne_nil _ _)
  | cons s ss =>
      rw [joinSegments_cons (List.cons_ne_nil _ _)] at whole
      rw [← whole] at leads
      exact absurd (congrArg Prod.fst leads) (List.cons_ne_nil _ _)

theorem componentsOf_segments_of_trimmed_eq_nil {cs : List Char}
    (empty : trimmed (segments cs) = []) : componentsOf (segments cs) = [] := by
  rw [← componentsOf_trimmed, empty]
  rfl

/-- One component more than the parent, where the text splits into a front and what is searched for
the last component. -/
theorem parent?_of_front {path : String} {lead body : List Char} {start : List Component}
    (leads : Path.lead path.toList = (lead, body))
    (whole : components path = start ++ componentsOf (segments body))
    (above : ∀ init last, trimmed (segments body) = init ++ [last] →
      components (String.ofList (lead ++ joinSegments (trimmed init))) =
        start ++ componentsOf (trimmed init)) :
    (components path = start ∧ parent? path = if lead = ['.'] then some "" else none) ∨
      ∃ parent last, parent? path = some parent ∧ last ≠ .root ∧
        components path = components parent ++ [last] := by
  rcases parent?_cases leads with ⟨empty, topmost⟩ | ⟨init, last, kept, up⟩
  · refine .inl ⟨?_, topmost⟩
    rw [whole, componentsOf_segments_of_trimmed_eq_nil empty, List.append_nil]
  · obtain ⟨c, proper, inner⟩ := componentsOf_segments_of_trimmed kept
    refine .inr ⟨_, c, up, proper, ?_⟩
    rw [whole, inner, above init last kept, List.append_assoc]

theorem components_above_slash {rest last : List Char} {init : List (List Char)}
    (kept : trimmed (segments rest) = init ++ [last]) :
    components (String.ofList (['/'] ++ joinSegments (trimmed init))) =
      [.root] ++ componentsOf (trimmed init) := by
  rw [List.singleton_append, components_slash,
    componentsOf_segments_joinSegments (noSlash_of_trimmed kept), List.singleton_append]

theorem components_above_dot {rest last : List Char} {init : List (List Char)}
    (kept : trimmed (segments ('/' :: rest)) = init ++ [last]) :
    components (String.ofList (['.'] ++ joinSegments (trimmed init))) =
      [.here] ++ componentsOf (trimmed init) := by
  have noSlash := noSlash_of_trimmed kept
  obtain ⟨empties, cut⟩ := segments_of_trimmed kept
  rcases trimmed_behind_dot cut with none | ⟨s, tail, behind⟩
  · rw [none]
    rfl
  · rw [behind] at noSlash ⊢
    rw [joinSegments_cons (List.cons_ne_nil _ _)]
    change components (String.ofList ('.' :: '/' :: joinSegments (s :: tail))) = _
    rw [components_dot_slash, componentsOf_segments_joinSegments fun r member =>
      noSlash r (List.mem_cons_of_mem _ member)]
    rfl

theorem components_above_plain {cs last : List Char} {init : List (List Char)}
    (relative : cs.head? ≠ some '/') (undotted : (segments cs).head? ≠ some ['.'])
    (kept : trimmed (segments cs) = init ++ [last]) :
    components (String.ofList (joinSegments (trimmed init))) = componentsOf (trimmed init) := by
  have noSlash := noSlash_of_trimmed kept
  obtain ⟨empties, cut⟩ := segments_of_trimmed kept
  rcases trimmed_relative cut relative with none | ⟨notEmpty, relative'⟩
  · rw [none]
    rfl
  · rw [components_plain relative', componentsOf_segments_joinSegments noSlash]
    obtain ⟨others, above, _⟩ := trimmed_append init
    obtain ⟨s, ss, first⟩ : ∃ s ss, trimmed init = s :: ss :=
      List.exists_cons_of_ne_nil fun none => notEmpty (by rw [none]; rfl)
    rw [first] at noSlash above ⊢
    rw [segments_joinSegments (List.cons_ne_nil _ _) noSlash]
    rw [cut, above] at undotted
    exact undotted

/-- A path has one component more than its parent, the last one. Only the root and the path without
components have no parent. -/
theorem parent?_spec (path : String) :
    (parent? path = none ∧ (components path = [] ∨ components path = [.root])) ∨
      ∃ parent last, parent? path = some parent ∧ last ≠ .root ∧
        components path = components parent ++ [last] := by
  have spelled : path = String.ofList path.toList := String.ofList_toList.symm
  rcases lead_cases path.toList with ⟨rest, eq, leads⟩ | eq | ⟨rest, eq, leads⟩ | ⟨relative, leads⟩
  · have whole : components path = [.root] ++ componentsOf (segments rest) := by
      rw [spelled, eq, components_slash, List.singleton_append]
    have above := parent?_of_front leads whole fun _ _ => components_above_slash
    exact above.imp_left fun ⟨root, topmost⟩ => ⟨topmost, .inr root⟩
  · rw [eq] at spelled
    cases spelled
    exact .inr ⟨"", .here, rfl, by decide, by decide +kernel⟩
  · have whole : components path = [.here] ++ componentsOf (segments ('/' :: rest)) := by
      rw [spelled, eq, components_dot_slash, componentsOf_segments_slash, List.singleton_append]
    rcases parent?_of_front leads whole fun _ _ => components_above_dot with ⟨here, up⟩ | found
    · exact .inr ⟨"", .here, up, by decide, here⟩
    · exact .inr found
  · have undotted := undotted_of_lead leads
    have whole : components path = [] ++ componentsOf (segments path.toList) := by
      rw [spelled, components_plain relative undotted, ← spelled, List.nil_append]
    have above := parent?_of_front leads whole fun _ _ => components_above_plain relative undotted
    exact above.imp_left fun ⟨blank, topmost⟩ => ⟨topmost, .inl blank⟩

theorem components_parent? {path parent : String} (up : parent? path = some parent) :
    ∃ last, last ≠ .root ∧ components path = components parent ++ [last] := by
  rcases parent?_spec path with ⟨topmost, _⟩ | ⟨other, last, up', proper, eq⟩
  · rw [up] at topmost
    contradiction
  · cases up.symm.trans up'
    exact ⟨last, proper, eq⟩

theorem parent?_eq_none {path : String} :
    parent? path = none ↔ components path = [] ∨ components path = [.root] := by
  rcases parent?_spec path with ⟨topmost, few⟩ | ⟨parent, last, up, proper, eq⟩
  · exact iff_of_true topmost few
  · refine iff_of_false (by simp [up]) ?_
    rw [eq]
    rintro (empty | single)
    · exact List.cons_ne_nil _ _ (List.append_eq_nil_iff.mp empty).2
    · obtain ⟨_, same⟩ | ⟨_, empty⟩ := List.append_eq_singleton_iff.mp single
      · exact proper (List.cons.inj same).1
      · exact List.cons_ne_nil _ _ empty

/-! ### The number of components -/

theorem flatten_segments (cs : List Char) : (segments cs).flatten = cs.filter (· ≠ '/') := by
  induction cs with
  | nil => rfl
  | cons c cs ih =>
      by_cases slash : c = '/'
      · simp [slash, ih]
      · obtain ⟨s, ss, eq⟩ := List.exists_cons_of_ne_nil (segments_ne_nil cs)
        rw [eq] at ih
        rw [segments_cons slash eq, List.filter_cons_of_pos (by simpa using slash), ← ih]
        rfl

theorem length_componentsOf_le (ss : List (List Char)) :
    (componentsOf ss).length ≤ ss.flatten.length := by
  induction ss with
  | nil => exact Nat.le_refl 0
  | cons s ss ih =>
      rw [List.flatten_cons, List.length_append]
      cases named : isEmptySegment s with
      | true =>
          rw [componentsOf_cons_empty named]
          omega
      | false =>
          obtain ⟨c, _, single⟩ := exists_component named
          have long : 0 < s.length := List.length_pos_iff.mpr fun none => by
            rw [none] at named
            contradiction
          rw [← List.singleton_append, componentsOf_append, single, List.singleton_append,
            List.length_cons]
          omega

theorem length_componentsOf_segments_le (cs : List Char) :
    (componentsOf (segments cs)).length ≤ cs.length := by
  refine Nat.le_trans (length_componentsOf_le _) ?_
  rw [flatten_segments]
  exact List.length_filter_le _ _

/-- A path has no more components than characters. -/
theorem length_components_le (path : String) : (components path).length ≤ path.length := by
  have spelled : path = String.ofList path.toList := String.ofList_toList.symm
  rw [← String.length_toList]
  rcases lead_cases path.toList with ⟨rest, eq, _⟩ | eq | ⟨rest, eq, _⟩ | ⟨relative, leads⟩
  · have := length_componentsOf_segments_le rest
    rw [spelled, eq, components_slash, String.toList_ofList, List.length_cons, List.length_cons]
    omega
  · rw [spelled, eq]
    decide +kernel
  · have := length_componentsOf_segments_le rest
    rw [spelled, eq, components_dot_slash, String.toList_ofList, List.length_cons, List.length_cons,
      List.length_cons]
    omega
  · rw [spelled, components_plain relative (undotted_of_lead leads), String.toList_ofList]
    exact length_componentsOf_segments_le _

end Path

end TypeClosure.FileTree

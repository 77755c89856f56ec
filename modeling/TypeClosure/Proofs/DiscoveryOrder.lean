import TypeClosure.Proofs.Extraction
import TypeClosure.Proofs.FileClosure
import TypeClosure.Proofs.Iteration
import TypeClosure.Proofs.TreeShape

/-!
The order in which a worklist comes across names. It takes them level by level: first the roots, then
what the roots refer to, then what that refers to; so a name that fewer references lead to comes
first.
-/

namespace TypeClosure

/-- The names among `names` that are not among `seen`, each where it first occurs. -/
def newNames (seen names : List String) : List String := (names.filter (· ∉ seen)).eraseDups

theorem newNames_cons_of_mem {seen names : List String} {name : String} (member : name ∈ seen) :
    newNames seen (name :: names) = newNames seen names := by
  rw [newNames, List.filter_cons_of_neg (by simpa using member), newNames]

theorem newNames_cons_of_not_mem {seen names : List String} {name : String}
    (fresh : name ∉ seen) :
    newNames seen (name :: names) = name :: newNames (seen ++ [name]) names := by
  have added := foldl_addName_eq seen (name :: names)
  rw [List.foldl_cons, addName, if_neg fresh, foldl_addName_eq, List.append_assoc,
    List.append_cancel_left_eq] at added
  exact added.symm

theorem newNames_congr {seen names others : List String}
    (same : names.filter (· ∉ seen) = others.filter (· ∉ seen)) :
    newNames seen names = newNames seen others := by
  rw [newNames, newNames, same]

theorem eraseDups_concat (names : List String) (name : String) :
    (names ++ [name]).eraseDups = addName names.eraseDups name := by
  rw [← distinct_eq_eraseDups, ← distinct_eq_eraseDups, distinct, List.foldl_append]
  rfl

theorem newNames_eq_filter (seen names : List String) :
    newNames seen names = names.eraseDups.filter (· ∉ seen) := by
  rw [newNames]
  -- From the back: the last name is in the result unless it is among the names before it.
  induction names using List.reverseRecOn with
  | nil => rfl
  | append_singleton rest last ih =>
      rw [List.filter_append, eraseDups_concat]
      by_cases member : last ∈ seen
      · rw [List.filter_cons_of_neg (by simpa using member), List.filter_nil, List.append_nil, ih,
          addName]
        split
        · rfl
        · simp [List.filter_append, member]
      · rw [List.filter_cons_of_pos (by simpa using member), List.filter_nil, eraseDups_concat, ih]
        by_cases old : last ∈ rest.eraseDups
        · simp [addName, old, member]
        · simp [addName, old, member, List.filter_append]

theorem eq_nil_of_newNames_eq_nil {seen names : List String} (none : newNames seen names = []) :
    ∀ name ∈ names, name ∈ seen := by
  intro name member
  by_contra fresh
  have new : name ∈ newNames seen names := by
    rw [newNames, List.mem_eraseDups, List.mem_filter]
    exact ⟨member, by simpa using fresh⟩
  rw [none] at new
  exact List.not_mem_nil new

/-! ### Levels -/

namespace Source

variable (s : Source) (externals : List Glob.Pattern) (roots : List String)

/-- The names that a name leads to: none, if it matches an external pattern. -/
def leadsTo (name : String) : List String :=
  if isExternal externals name then [] else s.references name

mutual
/-- The names that are first met after `k` references. -/
def level : Nat → List String
  | 0 => roots.eraseDups
  | k + 1 => ((level k).flatMap (s.leadsTo externals)).eraseDups.filter
      (· ∉ levelsBelow k ++ level k)

/-- The names that are met after fewer than `k` references, one level after the other. -/
def levelsBelow : Nat → List String
  | 0 => []
  | k + 1 => levelsBelow k ++ level k
end

/-- A name that some number of references leads to from the roots. -/
inductive ReachableIn : Nat → String → Prop
  | root {name : String} : name ∈ roots → ReachableIn 0 name
  | reference {n : Nat} {name other : String} : ReachableIn n name →
      isExternal externals name = false → s.Refers name other → ReachableIn (n + 1) other

variable {s externals roots} {k n : Nat} {name other : String}

theorem mem_leadsTo :
    other ∈ s.leadsTo externals name ↔
      isExternal externals name = false ∧ s.Refers name other := by
  unfold leadsTo
  split
  · next external => simp [external]
  · next looked => simp [looked, mem_references]

theorem level_congr {others : List String} (same : roots.eraseDups = others.eraseDups) (k : Nat) :
    s.level externals roots k = s.level externals others k ∧
      s.levelsBelow externals roots k = s.levelsBelow externals others k := by
  induction k with
  | zero => exact ⟨same, rfl⟩
  | succ k ih => simp only [level, levelsBelow, ih, and_self]

theorem mem_levelsBelow :
    name ∈ s.levelsBelow externals roots k ↔ ∃ j < k, name ∈ s.level externals roots j := by
  induction k with
  | zero => simp [levelsBelow]
  | succ k ih =>
      rw [levelsBelow, List.mem_append, ih]
      constructor
      · rintro (⟨j, less, member⟩ | member)
        · exact ⟨j, Nat.lt_succ_of_lt less, member⟩
        · exact ⟨k, Nat.lt_succ_self k, member⟩
      · rintro ⟨j, less, member⟩
        rcases Nat.lt_succ_iff_lt_or_eq.mp less with less | rfl
        · exact .inl ⟨j, less, member⟩
        · exact .inr member

theorem not_mem_levelsBelow (member : name ∈ s.level externals roots k) :
    name ∉ s.levelsBelow externals roots k := by
  cases k with
  | zero => exact List.not_mem_nil
  | succ k =>
      rw [level, List.mem_filter] at member
      exact of_decide_eq_true member.2

theorem reachableIn_of_mem_level (member : name ∈ s.level externals roots k) :
    s.ReachableIn externals roots k name := by
  induction k generalizing name with
  | zero => exact .root (List.mem_eraseDups.mp member)
  | succ k ih =>
      rw [level, List.mem_filter, List.mem_eraseDups, List.mem_flatMap] at member
      obtain ⟨⟨before, earlier, leads⟩, _⟩ := member
      obtain ⟨looked, refers⟩ := mem_leadsTo.mp leads
      exact .reference (ih earlier) looked refers

theorem mem_levelsBelow_of_reachableIn (reachable : s.ReachableIn externals roots n name) :
    name ∈ s.levelsBelow externals roots (n + 1) := by
  induction reachable with
  | root member =>
      exact mem_levelsBelow.mpr ⟨0, Nat.lt_succ_self 0, List.mem_eraseDups.mpr member⟩
  | @reference n before name _ looked refers ih =>
      obtain ⟨j, less, member⟩ := mem_levelsBelow.mp ih
      by_cases old : name ∈ s.levelsBelow externals roots j ++ s.level externals roots j
      · rw [← levelsBelow] at old
        obtain ⟨i, earlier, found⟩ := mem_levelsBelow.mp old
        exact mem_levelsBelow.mpr ⟨i, by omega, found⟩
      · refine mem_levelsBelow.mpr ⟨j + 1, by omega, ?_⟩
        rw [level, List.mem_filter, List.mem_eraseDups, List.mem_flatMap]
        exact ⟨⟨before, member, mem_leadsTo.mpr ⟨looked, refers⟩⟩, decide_eq_true old⟩

/-- No fewer references lead to a name than the number of its level. -/
theorem le_of_reachableIn (member : name ∈ s.level externals roots k)
    (reachable : s.ReachableIn externals roots n name) : k ≤ n := by
  by_contra less
  obtain ⟨j, earlier, found⟩ := mem_levelsBelow.mp (mem_levelsBelow_of_reachableIn reachable)
  exact not_mem_levelsBelow member (mem_levelsBelow.mpr ⟨j, by omega, found⟩)

/-- Whatever number of references leads to the later of two names, no more lead to the earlier. -/
theorem pairwise_levelsBelow (k : Nat) :
    (s.levelsBelow externals roots k).Pairwise fun earlier later =>
      ∀ n, s.ReachableIn externals roots n later →
        ∃ m ≤ n, s.ReachableIn externals roots m earlier := by
  induction k with
  | zero => exact List.Pairwise.nil
  | succ k ih =>
      have here {earlier later : String} {j : Nat} (bound : j ≤ k)
          (before : earlier ∈ s.level externals roots j)
          (member : later ∈ s.level externals roots k) :
          ∀ n, s.ReachableIn externals roots n later →
            ∃ m ≤ n, s.ReachableIn externals roots m earlier := fun n reachable =>
        ⟨j, Nat.le_trans bound (le_of_reachableIn member reachable),
          reachableIn_of_mem_level before⟩
      refine List.pairwise_append.mpr ⟨ih, ?_, ?_⟩
      · rw [List.pairwise_iff_forall_sublist]
        intro earlier later both
        exact here (Nat.le_refl k) (both.subset (by simp)) (both.subset (by simp))
      · intro earlier before later member
        obtain ⟨j, less, found⟩ := mem_levelsBelow.mp before
        exact here (Nat.le_of_lt less) found member

theorem level_eq_nil_of_le {j : Nat} (none : s.level externals roots j = []) (le : j ≤ k) :
    s.level externals roots k = [] := by
  induction le with
  | refl => exact none
  | step _ ih => rw [level, ih, List.flatMap_nil, List.eraseDups_nil, List.filter_nil]

variable (s externals roots)

theorem le_length_levelsBelow (k : Nat) (some : ∀ j < k, s.level externals roots j ≠ []) :
    k ≤ (s.levelsBelow externals roots k).length := by
  induction k with
  | zero => exact Nat.zero_le _
  | succ k ih =>
      have before := ih fun j less => some j (Nat.lt_succ_of_lt less)
      have here := List.length_pos_iff.mpr (some k (Nat.lt_succ_self k))
      rw [levelsBelow, List.length_append]
      omega

end Source

/-! ### The queue -/

namespace Worklist

variable {s : Source} {externals : List Glob.Pattern} {roots : List String} {w : Worklist}
  {name : String} {rest : List String}

theorem leadsTo_eq (looked : w.lookedUp? = some name) :
    s.leadsTo externals name =
      (w.extracted s.contents externals).flatMap s.contents.referencesAt := by
  simp only [extracted, looked, Source.leadsTo]
  split
  · rfl
  · exact (s.flatMap_referencesAt_positions name).symm

theorem run_next (busy : w.queue ≠ []) :
    (w.next s.contents externals roots).run s.contents externals roots =
      w.run s.contents externals roots := by
  conv => rhs; rw [run, if_neg busy]

variable (s externals roots)

theorem next_of_lookedUp (queued : w.queue = name :: rest) (fresh : name ∉ w.order) :
    (w.next s.contents externals roots).order = w.order ++ [name] ∧
      (w.next s.contents externals roots).queue =
        rest ++ (s.leadsTo externals name).filter (· ∉ w.order ++ [name]) := by
  rw [mem_order, Bool.not_eq_true] at fresh
  have looked : w.lookedUp? = some name :=
    lookedUp?_eq_some.mpr ⟨by rw [queued, List.head?_cons], fresh⟩
  have busy : w.queue ≠ [] := by simp [queued]
  have queue := (advances_next s externals roots busy).queue
  have order := order_next s externals roots w
  rw [looked, Option.toList_some] at order
  rw [order, queued, List.tail_cons, ← leadsTo_eq looked] at queue
  exact ⟨order, queue⟩

/-- Going through the front part of the queue looks up its new names, and what they lead to then
stands behind the rest of the queue, but for names that have been looked up. -/
theorem exists_behind_front (w : Worklist) {front back : List String}
    (queued : w.queue = front ++ back) :
    ∃ after : Worklist,
      after.run s.contents externals roots = w.run s.contents externals roots ∧
      after.order = w.order ++ newNames w.order front ∧
      after.queue.filter (· ∉ after.order) =
        (back ++ (newNames w.order front).flatMap (s.leadsTo externals)).filter
          (· ∉ after.order) := by
  induction front generalizing w back with
  | nil => exact ⟨w, rfl, by simp [newNames], by simp [newNames, queued]⟩
  | cons name front ih =>
      have busy : w.queue ≠ [] := by simp [queued]
      rw [List.cons_append] at queued
      by_cases seen : name ∈ w.order
      · have passed : w.next s.contents externals roots = { w with queue := front ++ back } :=
          next_of_visited queued (mem_order.mp seen)
        obtain ⟨after, run, order, queue⟩ := ih { w with queue := front ++ back } rfl
        rw [← passed, run_next busy] at run
        rw [newNames_cons_of_mem seen]
        exact ⟨after, run, order, queue⟩
      · obtain ⟨grown, longer⟩ := next_of_lookedUp s externals roots queued seen
        rw [List.append_assoc] at longer
        obtain ⟨after, run, order, queue⟩ := ih (w.next s.contents externals roots) longer
        rw [run_next busy] at run
        rw [grown] at order queue
        -- What has been looked up by now stays so until the front part is done.
        have kept : ((s.leadsTo externals name).filter (· ∉ w.order ++ [name])).filter
            (· ∉ after.order) = (s.leadsTo externals name).filter (· ∉ after.order) := by
          rw [List.filter_filter]
          apply List.filter_congr
          intro other _
          rw [Bool.eq_iff_iff]
          simp only [order, List.mem_append, decide_eq_true_iff, Bool.and_eq_true]
          tauto
        refine ⟨after, run, ?_, ?_⟩
        · rw [newNames_cons_of_not_mem seen, order, List.append_assoc, List.singleton_append]
        · rw [queue, newNames_cons_of_not_mem seen, List.flatMap_cons]
          simp only [List.filter_append, kept, List.append_assoc]

/-- When a level begins, the names of the levels below have been looked up, and those of the level
are what is new in the queue. -/
theorem exists_at_level (k : Nat) :
    ∃ w : Worklist,
      w.run s.contents externals roots = s.contents.worklist externals roots ∧
      w.order = s.levelsBelow externals roots k ∧
      newNames w.order w.queue = s.level externals roots k := by
  induction k with
  | zero =>
      refine ⟨start s.contents roots, rfl, order_start, ?_⟩
      rw [order_start, newNames_eq_filter, List.filter_eq_self.mpr (by simp)]
      rfl
  | succ k ih =>
      obtain ⟨w, run, order, queue⟩ := ih
      obtain ⟨after, run', order', queue'⟩ := exists_behind_front s externals roots w
        (List.append_nil w.queue).symm
      rw [queue, order, ← Source.levelsBelow] at order'
      rw [queue, List.nil_append] at queue'
      refine ⟨after, run'.trans run, order', ?_⟩
      rw [newNames_congr queue', newNames_eq_filter, order']
      rfl

theorem order_prefix_run (w : Worklist) :
    w.order <+: (w.run s.contents externals roots).order := by
  fun_induction run s.contents externals roots w with
  | case1 w done => exact List.prefix_rfl
  | case2 w busy ih =>
      rw [order_next] at ih
      exact (List.prefix_append _ _).trans ih

theorem order_run_of_seen (w : Worklist) (seen : ∀ name ∈ w.queue, name ∈ w.order) :
    (w.run s.contents externals roots).order = w.order := by
  fun_induction run s.contents externals roots w with
  | case1 w done => rfl
  | case2 w busy ih =>
      obtain ⟨name, rest, queued⟩ := List.exists_cons_of_ne_nil busy
      rw [queued, List.forall_mem_cons] at seen
      have passed : w.next s.contents externals roots = { w with queue := rest } :=
        next_of_visited queued (mem_order.mp seen.1)
      rw [passed] at ih ⊢
      exact ih seen.2

end Worklist

namespace Source

/-- The names that a worklist looks up, in its order, are those of the levels, one level after the
other, up to an empty one. -/
theorem exists_order_eq_levelsBelow (s : Source) (externals : List Glob.Pattern)
    (roots : List String) :
    ∃ depth, s.level externals roots depth = [] ∧
      (s.contents.worklist externals roots).order = s.levelsBelow externals roots depth := by
  have ends : ∃ depth, s.level externals roots depth = [] := by
    by_contra never
    rw [not_exists] at never
    -- Levels that are not empty would outgrow what has been looked up in the end.
    obtain ⟨w, run, order, _⟩ := Worklist.exists_at_level s externals roots
      ((s.contents.worklist externals roots).order.length + 1)
    have fits := (Worklist.order_prefix_run s externals roots w).length_le
    have grown := le_length_levelsBelow s externals roots
      ((s.contents.worklist externals roots).order.length + 1) fun j _ => never j
    rw [run, order] at fits
    omega
  obtain ⟨depth, none⟩ := ends
  obtain ⟨w, run, order, queue⟩ := Worklist.exists_at_level s externals roots depth
  rw [none] at queue
  have final := Worklist.order_run_of_seen s externals roots w
    (eq_nil_of_newNames_eq_nil queue)
  rw [run, order] at final
  exact ⟨depth, none, final⟩

theorem eraseDups_rootsFor (c : Contents) (requested : List String) :
    (c.rootsFor requested).eraseDups =
      (if requested.isEmpty then c.exportedNames else requested).eraseDups := by
  rw [← distinct_eq_eraseDups, distinct_of_nodup (c.nodup_rootsFor requested)]
  have exported := c.nodup_rootsFor []
  unfold Contents.rootsFor at exported ⊢
  split
  · exact (distinct_of_nodup exported).symm.trans (distinct_eq_eraseDups _)
  · exact distinct_eq_eraseDups _

theorem neededReexports_mapIdx (c : Contents) (names : Nat → List String) :
    c.neededReexports (c.reexports.mapIdx fun position _ => names position) =
      (c.reexports.mapIdx fun position r => r.restrictTo (names position)).filter
        (!·.names.isEmpty) := by
  have paired : c.reexports.zip (c.reexports.mapIdx fun position _ => names position) =
      c.reexports.mapIdx fun position r => (r, names position) := by
    apply List.ext_getElem
    · simp
    · intro position _ _
      simp
  have restricted : (c.reexports.mapIdx fun position r => r.restrictTo (names position)) =
      (c.reexports.mapIdx fun position r => (r, names position)).map fun pair =>
        pair.1.restrictTo pair.2 := by
    apply List.ext_getElem
    · simp
    · intro position _ _
      simp
  rw [Contents.neededReexports, paired, restricted, List.filter_map]
  refine congrArg (List.map _) (List.filter_congr ?_)
  intro pair _
  simp

/-- A file's names are discovered level by level. Level 0 has the roots, and each further level what
the names of the one before lead to, without the names of all levels before; from some level on all
are empty. External names, missing roots and the names of each statement that forwards names come in
the order of the levels. So whatever number of references leads to an external name, no more lead to
one that is listed before it. -/
theorem discovered_by_levels (s : Source) (externals : List Glob.Pattern)
    (requested : List String) :
    let roots := if requested.isEmpty then s.contents.exportedNames else requested
    let standing := s.contents.standing externals roots
    let c := s.closure externals requested
    ∃ depth, (∀ k, depth ≤ k → s.level externals roots k = []) ∧
      let discovered := s.levelsBelow externals roots depth
      c.external = discovered.filter (standing · = .external) ∧
      c.missingRoots = discovered.filter (standing · = .missing) ∧
      c.reexports = (s.contents.reexports.mapIdx fun position r =>
        r.restrictTo (discovered.filter (standing · = .forwarded position))).filter
          (!·.names.isEmpty) ∧
      c.external.Pairwise fun earlier later =>
        ∀ n, s.ReachableIn externals roots n later →
          ∃ m ≤ n, s.ReachableIn externals roots m earlier := by
  intro roots standing c
  have levels (k : Nat) : s.level externals (s.contents.rootsFor requested) k =
        s.level externals roots k ∧
      s.levelsBelow externals (s.contents.rootsFor requested) k =
        s.levelsBelow externals roots k :=
    level_congr (eraseDups_rootsFor s.contents requested) k
  have stands (name : String) :
      s.contents.standing externals (s.contents.rootsFor requested) name = standing name :=
    Contents.standing_congr_roots (fun _ => mem_rootsFor) name
  obtain ⟨depth, none, order⟩ := exists_order_eq_levelsBelow s externals
    (s.contents.rootsFor requested)
  rw [(levels depth).2] at order
  rw [(levels depth).1] at none
  have faithful : (s.contents.worklist externals (s.contents.rootsFor requested)).Faithful s
      externals (s.contents.rootsFor requested) := worklist_faithful
  have external : c.external =
      (s.levelsBelow externals roots depth).filter (standing · = .external) := by
    have listed := faithful.external_eq
    simp only [order, stands] at listed
    exact listed
  refine ⟨depth, fun k => level_eq_nil_of_le none, external, ?_, ?_, ?_⟩
  · have listed := faithful.missing_eq
    simp only [order, stands] at listed
    exact listed
  · have listed := faithful.forwarded_eq
    simp only [order, stands] at listed
    change s.contents.neededReexports
      (s.contents.worklist externals (s.contents.rootsFor requested)).forwarded = _
    rw [listed]
    exact neededReexports_mapIdx s.contents _
  · rw [external]
    exact (pairwise_levelsBelow depth).filter _

end Source

end TypeClosure

import Mathlib.Data.List.Perm.Basic
import TaskSpace.Machine.Step

/-!
# What a search leaves in the queues

A task that was queued is found or still queued, and a search of one worker adds nothing to the lane of
another. A worker that finds nothing has nothing on its lane, and when nobody else takes tasks, there is
nothing for it anywhere.
-/

namespace TaskSpace

open Machine (queued choose)

namespace Queues

variable {q q' : Queues} {v w : WorkerId} {t task : TaskId} {l : Lane}

/-- The lane of a worker without tasks. -/
abbrev bare : Lane := ⟨[], []⟩

theorem lane_setLane (hw : w < q.lanes.length) : (q.setLane w l).lane v = if v = w then l else q.lane v := by
  unfold lane setLane
  by_cases he : v = w
  · subst he
    simp [hw]
  · simp [he, List.getElem?_set_ne (Ne.symm he)]

theorem lane_of_ge (hw : q.lanes.length ≤ w) : q.lane w = bare := by
  simp [lane, List.getElem?_eq_none hw]

theorem lt_of_lane (h : q.lane w ≠ bare) : w < q.lanes.length :=
  Nat.lt_of_not_le fun hge => h (lane_of_ge hge)

theorem lane_empty (n : Nat) : (Queues.empty n).lane w = bare := by
  unfold lane empty
  rcases Nat.lt_or_ge w n with hlt | hge
  · simp [hlt]
  · simp [hge]

theorem mem_queued : t ∈ queued q ↔ t ∈ q.injector ∨ ∃ w, t ∈ (q.lane w).pinned ∨ t ∈ (q.lane w).own := by
  simp only [queued, List.mem_append, List.mem_flatMap]
  refine or_congr_right ⟨fun ⟨found, hm, ht⟩ => ?_, fun ⟨w, ht⟩ => ?_⟩
  · obtain ⟨w, hw⟩ := List.mem_iff_getElem?.1 hm
    exact ⟨w, by simpa [lane, hw] using ht⟩
  · rcases Nat.lt_or_ge w q.lanes.length with hlt | hge
    · refine ⟨q.lanes[w], List.getElem_mem hlt, ?_⟩
      simpa [lane, List.getElem?_eq_getElem hlt] using ht
    · simp [lane_of_ge hge] at ht

theorem queued_eq_nil : queued q = [] ↔ q.injector = [] ∧ ∀ w, q.lane w = bare := by
  simp only [List.eq_nil_iff_forall_not_mem, mem_queued]
  constructor
  · refine fun h => ⟨fun t ht => h t (.inl ht), fun w => ?_⟩
    have hpinned : (q.lane w).pinned = [] := List.eq_nil_iff_forall_not_mem.2 fun t ht => h t (.inr ⟨w, .inl ht⟩)
    have hown : (q.lane w).own = [] := List.eq_nil_iff_forall_not_mem.2 fun t ht => h t (.inr ⟨w, .inr ht⟩)
    cases hl : q.lane w
    simp_all
  · rintro ⟨hi, hl⟩ t (ht | ⟨w, ht⟩)
    · exact hi t ht
    · simp [hl w] at ht

theorem queued_empty (n : Nat) : queued (Queues.empty n) = [] := by
  simp [queued, Queues.empty]

/-- What is queued once the injector and one lane are replaced, against what was queued before. -/
theorem count_queued (hw : w < q.lanes.length) (injector : List TaskId) (l : Lane) (t : TaskId) :
    (queued ({ q with injector }.setLane w l)).count t +
        (q.injector.count t + (q.lane w).pinned.count t + (q.lane w).own.count t) =
      (queued q).count t + (injector.count t + l.pinned.count t + l.own.count t) := by
  have hlane : q.lane w = q.lanes[w] := by simp [lane, hw]
  have hbefore := ((List.getElem_cons_eraseIdx_perm hw).flatMap_right fun l => l.pinned ++ l.own).count_eq t
  have hafter := ((List.set_perm_cons_eraseIdx hw l).flatMap_right fun l => l.pinned ++ l.own).count_eq t
  simp only [List.flatMap_cons, List.count_append] at hbefore hafter
  simp only [queued, setLane, List.count_append, hlane]
  omega

/-! ## Queueing -/

/-- What queueing a task does: that task is queued on top of what was, and only the lane of worker `w`
grows. -/
structure Grows (q : Queues) (w : Option WorkerId) (task : TaskId) (q' : Queues) : Prop where
  perm : (Machine.queued q').Perm (task :: Machine.queued q)
  lanes : q'.lanes.length = q.lanes.length
  others : ∀ v, w ≠ some v → q'.lane v = q.lane v

theorem Grows.queued {w : Option WorkerId} (h : q.Grows w task q') : task ∈ Machine.queued q' :=
  h.perm.mem_iff.2 List.mem_cons_self

theorem Grows.kept {w : Option WorkerId} (h : q.Grows w task q') : ∀ t ∈ Machine.queued q, t ∈ Machine.queued q' :=
  fun _ ht => h.perm.mem_iff.2 (List.mem_cons_of_mem _ ht)

theorem inject_grows (q : Queues) (task : TaskId) : q.Grows none task (q.inject task) where
  perm := by
    simp only [Machine.queued, inject, List.append_assoc, List.singleton_append]
    exact List.perm_middle
  lanes := rfl
  others _ _ := rfl

theorem add_grows (hw : w < q.lanes.length) (sticky : Bool) (task : TaskId) :
    q.Grows (some w) task (q.add w sticky task) where
  perm := by
    refine List.perm_iff_count.2 fun t => ?_
    have hcount := count_queued hw q.injector
      (if sticky then { q.lane w with pinned := task :: (q.lane w).pinned }
        else { q.lane w with own := task :: (q.lane w).own }) t
    change (Machine.queued (q.add w sticky task)).count t + _ = _ at hcount
    rw [List.count_cons]
    cases sticky <;> simp only [Bool.false_eq_true, if_false, if_true, List.count_cons] at hcount <;> omega
  lanes := by simp [add, setLane]
  others v hv := by rw [add, lane_setLane hw, if_neg fun he => hv (by rw [he])]

/-! ## Taking -/

/-- All that taking a task can do. -/
inductive Takes (q : Queues) (w : WorkerId) : TaskId → Queues → Prop where
  /-- The oldest injected task is taken, and some that follow come to the worker. -/
  | injected {task : TaskId} {rest : List TaskId} (h : q.injector = task :: rest) (batch : Nat) :
    Takes q w task ({ q with injector := rest.drop batch }.setLane w
      { q.lane w with own := rest.take batch ++ (q.lane w).own })
  | pinned {task : TaskId} {rest : List TaskId} (h : (q.lane w).pinned = task :: rest) :
    Takes q w task (q.setLane w { q.lane w with pinned := rest })
  | own {task : TaskId} {rest : List TaskId} (h : (q.lane w).own = task :: rest) :
    Takes q w task (q.setLane w { q.lane w with own := rest })
  | stolen {task : TaskId} {rest : List TaskId} (v : WorkerId) (h : (q.lane v).own = rest ++ [task]) :
    Takes q w task (q.setLane v { q.lane v with own := rest })

theorem takeInjected_takes {batch : Nat} (h : q.takeInjected w batch = some (task, q')) : q.Takes w task q' := by
  unfold takeInjected at h
  split at h
  · cases h
  · rename_i hi
    cases h
    exact .injected hi batch

theorem takeLocal_takes (h : q.takeLocal w = some (task, q')) : q.Takes w task q' := by
  unfold takeLocal at h
  dsimp only at h
  split at h
  · rename_i hp
    cases h
    exact .pinned hp
  · split at h
    · rename_i ho
      cases h
      exact .own ho
    · cases h

theorem steal_takes (w : WorkerId) (h : q.steal v = some (task, q')) : q.Takes w task q' := by
  obtain ⟨last, hl, he⟩ := Option.map_eq_some_iff.1 h
  cases he
  obtain ⟨init, hinit⟩ := List.getLast?_eq_some_iff.1 hl
  rw [hinit, List.dropLast_concat]
  exact .stolen v hinit

/-- Whatever the choice, a find takes a task in one of these ways. -/
theorem choose_takes {force contended : Bool} {choice : Choice}
    (h : choose q w force contended choice = some (some (task, q'))) : q.Takes w task q' := by
  unfold choose at h
  split at h
  · exact takeInjected_takes (Option.some.inj h)
  · split at h
    · cases h
    · split at h
      · rename_i hlocal
        exact takeLocal_takes (hlocal.trans (Option.some.inj h))
      · split at h
        · split at h <;> cases h
        · obtain ⟨found, hfound, he⟩ := Option.map_eq_some_iff.1 h
          cases he
          exact takeInjected_takes hfound
        · split at h
          · cases h
          · obtain ⟨found, hfound, he⟩ := Option.map_eq_some_iff.1 h
            cases he
            exact steal_takes w hfound

/-- What a find of worker `w` does: what was queued is found or still queued, and no lane of another worker
gets anything. -/
structure Yields (q : Queues) (w : WorkerId) (task : TaskId) (q' : Queues) : Prop where
  perm : (queued q).Perm (task :: queued q')
  lanes : q'.lanes.length = q.lanes.length
  others : ∀ v, v ≠ w → q.lane v = bare → q'.lane v = bare

theorem Yields.kept (h : q.Yields w task q') : ∀ t ∈ queued q, t = task ∨ t ∈ queued q' :=
  fun _ ht => List.mem_cons.1 (h.perm.mem_iff.1 ht)

/-- The injector and one lane are left with all they had, but for the task. -/
theorem setLane_yields {injector : List TaskId} (hv : v < q.lanes.length)
    (hleft : (q.injector ++ (q.lane v).pinned ++ (q.lane v).own).Perm (task :: (injector ++ l.pinned ++ l.own)))
    (hbare : v = w ∨ q.lane v ≠ bare) : q.Yields w task ({ q with injector }.setLane v l) where
  perm := by
    refine List.perm_iff_count.2 fun t => ?_
    have hcount := count_queued hv injector l t
    have hsame := hleft.count_eq t
    simp only [List.count_cons, List.count_append] at hsame ⊢
    omega
  lanes := by simp [setLane]
  others u hu hnone := by
    rw [lane_setLane (q := { q with injector }) hv]
    split
    · rename_i he
      subst he
      exact absurd hnone (hbare.resolve_left hu)
    · exact hnone

theorem Takes.yields (h : q.Takes w task q') (hw : w < q.lanes.length) : q.Yields w task q' := by
  cases h with
  | @injected rest hi batch =>
    refine setLane_yields hw ?_ (.inl rfl)
    rw [hi, List.cons_append, List.cons_append]
    refine List.Perm.cons _ (List.perm_iff_count.2 fun t => ?_)
    have hrest := congrArg (List.count t) (List.take_append_drop batch rest)
    simp only [List.count_append] at hrest ⊢
    omega
  | pinned hp =>
    refine setLane_yields hw ?_ (.inl rfl)
    simp only [hp, List.append_assoc, List.cons_append]
    exact List.perm_middle
  | own ho =>
    refine setLane_yields hw ?_ (.inl rfl)
    rw [ho]
    exact List.perm_middle
  | stolen v ho =>
    have hbare : q.lane v ≠ bare := fun he => by simp [he] at ho
    refine setLane_yields (lt_of_lane hbare) ?_ (.inr hbare)
    rw [ho, ← List.append_assoc]
    exact List.perm_append_singleton _ _

/-- Only the worker itself takes pinned tasks, and nothing comes to be pinned. -/
theorem Takes.pinned_eq (h : q.Takes w task q') (hne : v ≠ w) : (q'.lane v).pinned = (q.lane v).pinned := by
  have hsame : ∀ {injector : List TaskId} {u : WorkerId} {l : Lane}, (u = v → l.pinned = (q.lane u).pinned) →
      (({ q with injector }.setLane u l).lane v).pinned = (q.lane v).pinned := by
    intro injector u l hl
    rcases Nat.lt_or_ge u q.lanes.length with hlt | hge
    · rw [lane_setLane (q := { q with injector }) hlt]
      split
      · rename_i he
        rw [hl he.symm, he]
      · rfl
    · simp only [setLane, lane, List.set_eq_of_length_le hge]
  cases h with
  | injected => exact hsame fun he => absurd he.symm hne
  | pinned => exact hsame fun he => absurd he.symm hne
  | own => exact hsame fun he => absurd he.symm hne
  | stolen => exact hsame fun _ => rfl

/-- A find takes one task and loses none. -/
theorem choose_yields {force contended : Bool} {choice : Choice} (hw : w < q.lanes.length)
    (h : choose q w force contended choice = some (some (task, q'))) : q.Yields w task q' :=
  (choose_takes h).yields hw

theorem takeLocal_eq_none (h : q.takeLocal w = none) : q.lane w = bare := by
  unfold takeLocal at h
  dsimp only at h
  split at h
  · cases h
  · rename_i hp
    split at h
    · cases h
    · rename_i ho
      cases hl : q.lane w
      simp_all

theorem lane_of_hasStealable (h : q.hasStealable w = false) (hv : v ≠ w) : (q.lane v).own = [] := by
  simp only [hasStealable, Bool.or_eq_false_iff, decide_eq_false_iff_not, List.any_eq_false, others,
    List.mem_filter, List.mem_range, decide_eq_true_eq] at h
  rcases Nat.lt_or_ge v q.lanes.length with hlt | hge
  · exact Classical.not_not.1 (h.2 v ⟨hlt, hv⟩)
  · rw [lane_of_ge hge]

/-- A worker that finds nothing has nothing. When nobody else takes tasks, nothing is left that it could
take. -/
theorem choose_none {force contended : Bool} {choice : Choice}
    (h : choose q w force contended choice = some none) :
    q.lane w = bare ∧ (contended = false → q.injector = [] ∧ ∀ v, (q.lane v).own = []) := by
  unfold choose at h
  split at h
  · rename_i hforced
    unfold takeInjected at h
    split at h
    · rename_i hi
      exact absurd hi hforced.2.1
    · cases h
  · split at h
    · cases h
    · split at h
      · cases h
      · rename_i hlocal
        have hlane := takeLocal_eq_none hlocal
        split at h
        · split at h
          · rename_i hquiet
            refine ⟨hlane, fun hc => ?_⟩
            have hnone : q.hasStealable w = false := by simpa [hc] using hquiet
            refine ⟨?_, fun v => ?_⟩
            · simp only [hasStealable, Bool.or_eq_false_iff, decide_eq_false_iff_not] at hnone
              exact Classical.not_not.1 hnone.1
            · by_cases hv : v = w
              · rw [hv, hlane]
              · exact lane_of_hasStealable hnone hv
          · cases h
        · obtain ⟨found, _, he⟩ := Option.map_eq_some_iff.1 h
          cases he
        · split at h
          · cases h
          · obtain ⟨found, _, he⟩ := Option.map_eq_some_iff.1 h
            cases he

end Queues

end TaskSpace

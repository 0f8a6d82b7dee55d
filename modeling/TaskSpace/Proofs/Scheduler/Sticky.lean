import TaskSpace.Proofs.Scheduler.Queues

/-!
# Pinned tasks stay on their lane

A task that is queued as pinned only, and with certain workers only, is so after every operation on the
queues, and no worker but these finds it.
-/

namespace TaskSpace

open Machine (choose)

namespace Queues

variable {q q' : Queues} {v w : WorkerId} {t task : TaskId} {l : Lane} {p : WorkerId → Prop}

/-- The task is queued where workers may find it that did not queue it. -/
def Loose (q : Queues) (t : TaskId) : Prop := t ∈ q.injector ∨ ∃ v, t ∈ (q.lane v).own

/-- The task is queued as pinned only, with workers for which `p` holds. -/
structure Confines (q : Queues) (t : TaskId) (p : WorkerId → Prop) : Prop where
  pinned : ∀ v, t ∈ (q.lane v).pinned → p v
  tight : ¬q.Loose t

theorem Confines.mono {p' : WorkerId → Prop} (h : q.Confines t p) (hp : ∀ v, p v → p' v) : q.Confines t p' :=
  ⟨fun v hv => hp v (h.pinned v hv), h.tight⟩

theorem confines_empty (n : Nat) (t : TaskId) (p : WorkerId → Prop) : (Queues.empty n).Confines t p where
  pinned v hv := by
    rw [lane_empty] at hv
    cases hv
  tight := by
    rintro (hin | ⟨v, hv⟩)
    · cases hin
    · rw [lane_empty] at hv
      cases hv

/-! ## Queueing -/

theorem Confines.inject (h : q.Confines t p) (hne : t ≠ task) : (q.inject task).Confines t p where
  pinned := h.pinned
  tight := by
    rintro (hin | hown)
    · rcases List.mem_append.1 hin with hin | hin
      · exact h.tight (.inl hin)
      · exact hne (List.mem_singleton.1 hin)
    · exact h.tight (.inr hown)

/-- A task that is confined may be queued as pinned with one of its workers. -/
theorem Confines.add {sticky : Bool} (hw : w < q.lanes.length) (h : q.Confines t p)
    (hnew : t = task → sticky = true ∧ p w) : (q.add w sticky task).Confines t p := by
  have hlane : ∀ v, (q.add w sticky task).lane v = if v = w then
      (if sticky then { q.lane w with pinned := task :: (q.lane w).pinned }
        else { q.lane w with own := task :: (q.lane w).own }) else q.lane v := fun v => lane_setLane hw
  refine ⟨fun v hv => ?_, ?_⟩
  · rw [hlane] at hv
    split at hv
    · rename_i he
      subst he
      cases sticky with
      | false => exact h.pinned v hv
      | true =>
        rcases List.mem_cons.1 hv with hv | hv
        · exact (hnew hv).2
        · exact h.pinned v hv
    · exact h.pinned v hv
  · rintro (hin | ⟨v, hv⟩)
    · exact h.tight (.inl hin)
    · rw [hlane] at hv
      split at hv
      · cases sticky with
        | true => exact h.tight (.inr ⟨w, hv⟩)
        | false =>
          rcases List.mem_cons.1 hv with hv | hv
          · cases (hnew hv).1
          · exact h.tight (.inr ⟨w, hv⟩)
      · exact h.tight (.inr ⟨v, hv⟩)

/-! ## Searching -/

/-- What a find of worker `w` does to pinned tasks: none comes to be pinned or loose, and the one that is
found was pinned with the worker, or it was loose. -/
structure Sifts (q : Queues) (w : WorkerId) (task : TaskId) (q' : Queues) : Prop where
  pinned : ∀ t v, t ∈ (q'.lane v).pinned → t ∈ (q.lane v).pinned
  loose : ∀ t, q'.Loose t → q.Loose t
  found : task ∈ (q.lane w).pinned ∨ q.Loose task

theorem Sifts.confines (hs : q.Sifts w task q') (h : q.Confines t p) : q'.Confines t p :=
  ⟨fun v hv => h.pinned v (hs.pinned t v hv), fun hl => h.tight (hs.loose t hl)⟩

theorem Confines.found (h : q.Confines task p) (hs : q.Sifts w task q') : task ∈ (q.lane w).pinned :=
  hs.found.resolve_right h.tight

/-- The injector and one lane change, and get only what others may find already. -/
theorem setLane_sifts {injector : List TaskId} (hv : v < q.lanes.length) (hi : ∀ t ∈ injector, t ∈ q.injector)
    (hp : ∀ t ∈ l.pinned, t ∈ (q.lane v).pinned) (ho : ∀ t ∈ l.own, q.Loose t)
    (hf : task ∈ (q.lane w).pinned ∨ q.Loose task) :
    q.Sifts w task ({ q with injector }.setLane v l) := by
  have hlane : ∀ u, ({ q with injector }.setLane v l).lane u = if u = v then l else q.lane u :=
    fun u => lane_setLane (q := { q with injector }) hv
  refine ⟨fun t u hu => ?_, fun t hl => ?_, hf⟩
  · rw [hlane] at hu
    split at hu
    · rename_i he
      exact he ▸ hp t hu
    · exact hu
  · rcases hl with hin | ⟨u, hu⟩
    · exact .inl (hi t hin)
    · rw [hlane] at hu
      split at hu
      · exact ho t hu
      · exact .inr ⟨u, hu⟩

theorem Takes.sifts (h : q.Takes w task q') (hw : w < q.lanes.length) : q.Sifts w task q' := by
  cases h with
  | @injected rest hi batch =>
    have hrest : ∀ t ∈ rest, t ∈ q.injector := fun t ht => hi ▸ List.mem_cons_of_mem _ ht
    refine setLane_sifts hw (fun t ht => hrest t (List.mem_of_mem_drop ht)) (fun _ ht => ht) (fun t ht => ?_)
      (.inr (.inl (hi ▸ List.mem_cons_self)))
    rcases List.mem_append.1 ht with ht | ht
    · exact .inl (hrest t (List.mem_of_mem_take ht))
    · exact .inr ⟨w, ht⟩
  | pinned hp =>
    refine setLane_sifts hw (fun _ ht => ht) (fun t ht => hp ▸ List.mem_cons_of_mem _ ht)
      (fun t ht => .inr ⟨w, ht⟩) (.inl ?_)
    rw [hp]
    exact List.mem_cons_self
  | own ho =>
    refine setLane_sifts hw (fun _ ht => ht) (fun _ ht => ht)
      (fun t ht => .inr ⟨w, ho ▸ List.mem_cons_of_mem _ ht⟩) (.inr (.inr ⟨w, ?_⟩))
    rw [ho]
    exact List.mem_cons_self
  | stolen v ho =>
    have hbare : q.lane v ≠ bare := fun he => by simp [he] at ho
    refine setLane_sifts (lt_of_lane hbare) (fun _ ht => ht) (fun _ ht => ht)
      (fun t ht => .inr ⟨v, ho ▸ List.mem_append_left _ ht⟩) (.inr (.inr ⟨v, ?_⟩))
    rw [ho]
    exact List.mem_append_right _ List.mem_cons_self

/-- A find leaves pinned tasks where they are, but for one of the worker's own. -/
theorem choose_sifts {force contended : Bool} {choice : Choice} (hw : w < q.lanes.length)
    (h : choose q w force contended choice = some (some (task, q'))) : q.Sifts w task q' :=
  (choose_takes h).sifts hw

end Queues

end TaskSpace

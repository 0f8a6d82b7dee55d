import TaskSpace.Proofs.Scheduler.Conservation
import TaskSpace.Script.Queueing

/-!
# Scripts on a bench

A script does nothing that cannot be done on a bench, so it loses no task either. The storage counts the bodies
that its steps tell of. A drain reports how many entries were queued, and leaves none.
-/

namespace TaskSpace

open Machine (queued)

namespace Bench

variable {β : Type} {n : Nat} {s : Searcher n} {b b' : Bench β} {act : Act β}

/-- What comes to no body, and is no part of a drain. -/
def Quiet : Act β → Prop
  | .spawn _ _ _ | .find _ | .drop _ => True
  | .run _ | .join _ | .drain | .next _ | .finish _ => False

theorem step_quiet (hq : Quiet act) (h : b.step s act = some b') :
    b'.bodies = b.bodies ∧ b'.draining = b.draining := by
  rw [step, if_pos (allows_of_step h)] at h
  cases act with
  | spawn =>
    cases h
    exact ⟨rfl, rfl⟩
  | find batch =>
    simp only [perform, search] at h
    cases hs : b.queues.search s batch with
    | none =>
      simp only [hs, Option.map_none, Option.some.injEq] at h
      exact ⟨h ▸ rfl, h ▸ rfl⟩
    | some pair =>
      simp only [hs, Option.map_some, Option.some.injEq] at h
      exact ⟨h ▸ rfl, h ▸ rfl⟩
  | drop =>
    obtain ⟨hsettles, hbodies⟩ := discard_frame h
    exact ⟨hbodies, hsettles.draining⟩
  | run | join | drain | next | finish => cases hq

theorem length_begun (turn : Turn (Bench β) (Act β)) :
    (begun turn).length = turn.after.bodies.length - turn.before.bodies.length := by
  simp [begun, running]

end Bench

namespace Queueing

open Bench (Conserved logOf)

variable {others d k limit : Nat} {b b' b₁ : Bench Job} {st : State} {t : TaskId} {act : Bench.Act Job}
  {draining : Option Nat}

/-- A run comes to a bench, in which `count` bodies began. -/
def Reached (others : Nat) (b : Bench Job) (count : Nat) : Prop :=
  ∃ acts turns, trail (Bench.step (searcher others)) (State.start others).bench acts = some (turns, b) ∧
    (logOf (searcher others) turns).begun.length = count

theorem Reached.conserved {count : Nat} (h : Reached others b count) :
    ∃ acts turns, trail (Bench.step (searcher others)) (State.start others).bench acts = some (turns, b) ∧
      Conserved (searcher others) b (logOf (searcher others) turns) ∧
      (logOf (searcher others) turns).begun.length = count := by
  obtain ⟨acts, turns, htrail, hcount⟩ := h
  have hstart := Bench.conserved_start (β := Job) (searcher others) [Recorder.new 2]
    (show (1 : WorkerId) ≠ Holder.unregistered by decide) 0
  exact ⟨acts, turns, htrail, hstart.along htrail, hcount⟩

theorem Reached.step {count : Nat} (h : Reached others b count) (hs : b.step (searcher others) act = some b') :
    Reached others b' (count + (b'.bodies.length - b.bodies.length)) := by
  obtain ⟨acts, turns, htrail, hcount⟩ := h
  refine ⟨_, _, trail_snoc htrail hs, ?_⟩
  rw [Bench.logOf_concat]
  simp only [Bench.Log.next, List.length_append, hcount, Bench.length_begun]

/-- A script got to where no body runs. So far `d` bodies began, and those that the state tells of. -/
structure Told (others d : Nat) (draining : Option Nat) (st : State) : Prop where
  reached : Reached others st.bench (d + st.ran.length)
  rested : st.bench.bodies = []
  draining : st.bench.draining = draining

theorem act_eq (h : st.bench.step (searcher others) act = some b') :
    st.act (searcher others) act = { st with bench := b' } := by
  simp only [State.act, h, Option.getD_some]

theorem Told.of_step (h : Told others d draining st) (hs : st.bench.step (searcher others) act = some b')
    (hb : b'.bodies = []) : Told others d b'.draining (st.act (searcher others) act) := by
  rw [act_eq hs]
  refine ⟨?_, hb, rfl⟩
  simpa [hb] using h.reached.step hs

theorem Told.quiet (h : Told others d draining st) (hq : Bench.Quiet act) :
    Told others d draining (st.act (searcher others) act) := by
  cases hs : st.bench.step (searcher others) act with
  | none =>
    have hsame : st.act (searcher others) act = st := by simp only [State.act, hs, Option.getD_none]
    exact hsame.symm ▸ h
  | some b' =>
    obtain ⟨hbodies, hdraining⟩ := Bench.step_quiet hq hs
    rw [← h.draining, ← hdraining]
    exact h.of_step hs (hbodies.trans h.rested)

/-- What comes to a task has its job do what it does, and tells of it, unless the job is gone. -/
theorem Told.runTask (h : Told others d draining st) (ha : st.bench.Allows (searcher others) act)
    (hp : st.bench.perform (searcher others) act = b₁.enter t) (hc : b₁.cell? t = st.bench.cell? t)
    (hb : b₁.bodies = []) :
    Told others d b₁.draining (st.runTask (searcher others) t act) ∧
      (st.runTask (searcher others) t act).bench.queues = b₁.queues := by
  obtain ⟨_, _, _, hconserved, _⟩ := h.reached.conserved
  obtain ⟨b₂, hstep, hconserved⟩ := hconserved.step ha
  have henter : b₁.enter t = some b₂ := by
    rw [← hp]
    rw [Bench.step, if_pos ha] at hstep
    exact hstep
  obtain ⟨cell, hcell, ⟨hnone, rfl⟩ | ⟨job, bracket, hsome, hpush, hsettles⟩⟩ := Bench.enter_cases henter
  · have hgone : st.runTask (searcher others) t act = st.act (searcher others) act := by
      simp only [State.runTask, ← hc, hcell, Option.bind_some, hnone]
    rw [hgone]
    exact ⟨h.of_step hstep hb, by rw [act_eq hstep]⟩
  · -- the body begins, and is over in the next turn
    have hbusy : b₂.bodies ≠ [] := by rw [hpush]; exact List.cons_ne_nil _ _
    have hallowed : b₂.Allows (searcher others) (.finish job.result) := hbusy
    obtain ⟨b₃, hfinish, _⟩ := hconserved.step hallowed
    have hleave : b₂.leave job.result = some b₃ := by
      rw [← hfinish, Bench.step, if_pos hallowed]
      rfl
    obtain ⟨hleaves, hpop⟩ := Bench.leave_frame hleave
    have hrested : b₃.bodies = [] := by rw [hpop, hpush, hb]; rfl
    have hran : st.runTask (searcher others) t act = { bench := b₃, ran := st.ran ++ [job.name] } := by
      simp only [State.runTask, ← hc, hcell, Option.bind_some, hsome]
      rw [act_eq hstep, act_eq hfinish]
    rw [hran]
    refine ⟨⟨?_, hrested, hleaves.draining.trans hsettles.draining⟩, hleaves.queues.trans hsettles.queues⟩
    have hreached := (h.reached.step hstep).step hfinish
    rw [hrested, hpush, hb, h.rested] at hreached
    simpa [Nat.add_assoc] using hreached

/-! ## Drains -/

theorem length_queued (q : Queues) : (queued q).length = State.queued q := by
  have hlanes : ∀ lanes : List Lane, (lanes.flatMap fun lane => lane.pinned ++ lane.own).length =
      Word.total (lanes.map fun lane => lane.pinned.length + lane.own.length) := by
    intro lanes
    induction lanes with
    | nil => rfl
    | cons lane lanes ih =>
      rw [List.flatMap_cons, List.length_append, List.length_append, List.map_cons, Word.total_cons, ih]
  rw [queued, List.length_append, hlanes, State.queued]

theorem found_eq_none (h : st.found (searcher others) = none) :
    st.bench.queues.search (searcher others) st.batch = none := by
  simpa only [State.found, Bench.search, Option.map_eq_none_iff] using h

theorem found_eq_some (h : st.found (searcher others) = some t) :
    ∃ q', st.bench.queues.search (searcher others) st.batch = some (t, q') := by
  simp only [State.found, Bench.search, Option.map_map, Option.map_eq_some_iff] at h
  obtain ⟨⟨found, q'⟩, hs, rfl⟩ := h
  exact ⟨q', hs⟩

/-- Where nothing is queued, a drain is over. -/
theorem Told.returns (h : Told others d (some k) st) (hempty : queued st.bench.queues = []) :
    Told others d none (st.act (searcher others) (.next st.batch)) ∧
      (st.act (searcher others) (.next st.batch)).bench.queues = st.bench.queues := by
  obtain ⟨_, _, _, hconserved, _⟩ := h.reached.conserved
  have hnone : st.bench.queues.search (searcher others) st.batch = none := by
    refine Option.eq_none_iff_forall_ne_some.2 fun pair hs => ?_
    have hyields := (Queues.search_takes hs).yields (hconserved.entries.lanes.symm ▸ (searcher others).known)
    have hperm := hyields.perm
    rw [hempty] at hperm
    exact List.cons_ne_nil _ _ hperm.nil_eq.symm
  have hallowed : st.bench.Allows (searcher others) (.next st.batch) := ⟨h.rested, by rw [h.draining]; rfl⟩
  have hlast : st.bench.step (searcher others) (.next st.batch) = some { st.bench with draining := none } := by
    rw [Bench.step, if_pos hallowed]
    simp only [Bench.perform, Bench.search, hnone, Option.map_none]
  exact ⟨h.of_step hlast h.rested, by rw [act_eq hlast]⟩

/-- A drain that may go on for as long as something is queued counts all of it. -/
theorem Told.drain (h : Told others d (some k) st) (hl : (queued st.bench.queues).length ≤ limit) :
    Told others d (some (k + (queued st.bench.queues).length)) (State.drain (searcher others) limit st) ∧
      queued (State.drain (searcher others) limit st).bench.queues = [] := by
  induction limit generalizing st k with
  | zero =>
    have hempty := List.eq_nil_of_length_eq_zero (Nat.le_zero.1 hl)
    simp only [State.drain, hempty, List.length_nil, Nat.add_zero]
    exact ⟨h, trivial⟩
  | succ limit ih =>
    obtain ⟨_, _, _, hconserved, _⟩ := h.reached.conserved
    cases hfound : st.found (searcher others) with
    | none =>
      have hempty := hconserved.queued_eq_nil (found_eq_none hfound)
      simp only [State.drain, hfound, hempty, List.length_nil, Nat.add_zero]
      exact ⟨h, trivial⟩
    | some t =>
      obtain ⟨q', hs⟩ := found_eq_some hfound
      have hyields := (Queues.search_takes hs).yields (hconserved.entries.lanes.symm ▸ (searcher others).known)
      have hlength := hyields.perm.length_eq
      rw [List.length_cons] at hlength
      have hallowed : st.bench.Allows (searcher others) (.next st.batch) := ⟨h.rested, by rw [h.draining]; rfl⟩
      have hperform : st.bench.perform (searcher others) (.next st.batch) =
          ({ st.bench with queues := q', draining := some (k + 1) } : Bench Job).enter t := by
        simp only [Bench.perform, Bench.search, hs, Option.map_some, h.draining]
      obtain ⟨htold, hqueues⟩ : Told others d (some (k + 1)) (st.runTask (searcher others) t (.next st.batch)) ∧
          (st.runTask (searcher others) t (.next st.batch)).bench.queues = q' :=
        h.runTask hallowed hperform rfl h.rested
      have hrest := ih htold (by rw [hqueues]; omega)
      rw [hqueues] at hrest
      have hcount : k + (queued st.bench.queues).length = k + 1 + (queued q').length := by omega
      rw [hcount]
      simpa only [State.drain, hfound] using hrest

/-- A drain reports how many entries were queued, and leaves none. -/
theorem Told.take_drain (h : Told others d none st) (names : List String) :
    Told others d none (st.take (searcher others) names .drain).2 ∧
      (st.take (searcher others) names .drain).1 = .count (queued st.bench.queues).length ∧
      queued (st.take (searcher others) names .drain).2.bench.queues = [] := by
  have hbegins : st.bench.step (searcher others) .drain = some { st.bench with draining := some 0 } := by
    rw [Bench.step, if_pos ⟨h.rested, h.draining⟩]
    rfl
  have hbegun : Told others d (some 0) (st.act (searcher others) .drain) := h.of_step hbegins h.rested
  have hqueues : (st.act (searcher others) .drain).bench.queues = st.bench.queues := by rw [act_eq hbegins]
  have hlimit : (queued (st.act (searcher others) .drain).bench.queues).length ≤ State.queued st.bench.queues := by
    rw [hqueues]
    exact Nat.le_of_eq (length_queued _)
  obtain ⟨htold, hempty⟩ := hbegun.drain hlimit
  rw [hqueues, Nat.zero_add] at htold
  obtain ⟨hover, hkept⟩ := htold.returns hempty
  refine ⟨hover, ?_, ?_⟩
  · simp only [State.take, htold.draining, Option.getD_some]
  · simp only [State.take, hkept]
    exact hempty

/-! ## Scripts -/

/-- Each step of a script leaves the bench to itself again. -/
theorem Told.take (h : Told others d none st) (names : List String) (step : Step) :
    Told others d none (st.take (searcher others) names step).2 := by
  cases step with
  | inject | addOther | add | find => exact h.quiet trivial
  | dropHeld =>
    refine List.foldlRecOn st.bench.held _ h fun st' hst' t _ => ?_
    exact hst'.quiet trivial
  | drain => exact (h.take_drain names).1
  | runNext =>
    cases hfound : st.found (searcher others) with
    | none => simpa only [State.take, hfound] using h
    | some t =>
      obtain ⟨q', hs⟩ := found_eq_some hfound
      have hfind : st.bench.step (searcher others) (.find st.batch) =
          some { st.bench with queues := q', held := st.bench.held ++ [t] } := by
        rw [Bench.step, if_pos ⟨h.rested, h.draining⟩]
        simp only [Bench.perform, Bench.search, hs, Option.map_some]
      have htold : Told others d none (st.act (searcher others) (.find st.batch)) := h.quiet trivial
      have hheld : t ∈ (st.act (searcher others) (.find st.batch)).bench.held := by
        rw [act_eq hfind]
        exact List.mem_append_right _ List.mem_cons_self
      have hallowed : (st.act (searcher others) (.find st.batch)).bench.Allows (searcher others) (.run t) :=
        ⟨⟨htold.rested, htold.draining⟩, hheld⟩
      simp only [State.take, hfound]
      exact htold.draining ▸ (htold.runTask hallowed rfl rfl htold.rested).1

theorem run_told (h : Told others d none { st with ran := [] }) (names : List String) (steps : List Step) :
    Told others (d + ((run (searcher others) names st steps).1.flatMap Report.ran).length) none
      { (run (searcher others) names st steps).2.2 with ran := [] } := by
  induction steps generalizing d st names with
  | nil => exact h
  | cons step rest ih =>
    have htold := h.take (names ++ step.made.toList) step
    simp only [run, List.flatMap_cons, List.length_append, ← Nat.add_assoc]
    exact ih ⟨htold.reached, htold.rested, htold.draining⟩ _

theorem start_told (others : Nat) : Told others 0 none { State.start others with ran := [] } :=
  ⟨⟨[], [], rfl, rfl⟩, rfl, rfl⟩

/-- A script is a run on a bench, which loses nothing. -/
theorem run_accounted (others : Nat) (steps : List Step) :
    ∃ acts turns, trail (Bench.step (searcher others)) (State.start others).bench acts =
        some (turns, (run (searcher others) [] (.start others) steps).2.2.bench) ∧
      Bench.Accounted (searcher others) (run (searcher others) [] (.start others) steps).2.2.bench
        (logOf (searcher others) turns) := by
  obtain ⟨acts, turns, htrail, hconserved, _⟩ := (run_told (start_told others) [] steps).reached.conserved
  exact ⟨acts, turns, htrail, hconserved.accounted⟩

/-- Whatever a script did, a drain then reports how many entries were queued, and leaves no task undone that is
not held. -/
theorem drain_after (others : Nat) (steps : List Step) (names : List String) :
    let st : State := { (run (searcher others) [] (.start others) steps).2.2 with ran := [] }
    let (result, final) := st.take (searcher others) names .drain
    result = .count (queued st.bench.queues).length ∧ queued final.bench.queues = [] ∧
      ∀ t cell, final.bench.cell? t = some cell → t ∉ final.bench.held → cell.state.isTerminal := by
  obtain ⟨htold, hcount, hempty⟩ := (run_told (start_told others) [] steps).take_drain names
  obtain ⟨_, _, _, hconserved, _⟩ := htold.reached.conserved
  exact ⟨hcount, hempty, fun t cell hc ht => hconserved.isTerminal hempty htold.rested hc ht⟩

/-- The storage counts the bodies that the steps of a script tell of, and they are all over. -/
theorem summarize_counters (others : Nat) (steps : List Step) :
    (summarize others steps).counters.registered = ((summarize others steps).reports.flatMap Report.ran).length ∧
      (summarize others steps).counters.deregistered = ((summarize others steps).reports.flatMap Report.ran).length := by
  have htold := run_told (start_told others) [] steps
  obtain ⟨_, turns, _, hconserved, hcount⟩ := htold.reached.conserved
  obtain ⟨st, hst, hregistered, hderegistered, hopen⟩ := hconserved.accounted.counted
  have hrested : (run (searcher others) [] (.start others) steps).2.2.bench.bodies = [] := htold.rested
  simp only [hrested, List.length_nil, Nat.add_zero] at hopen
  simp only [Nat.zero_add, List.length_nil, Nat.add_zero] at hcount
  simp only [summarize, hst, Option.map_some, Option.getD_some]
  exact ⟨hregistered.trans hcount, hderegistered.trans (hopen.symm.trans hcount)⟩

end Queueing

end TaskSpace

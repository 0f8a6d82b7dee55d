import TaskSpace.Proofs.Machine.Trail
import TaskSpace.Proofs.Scheduler.Bench

/-!
# No queue entry gets lost

In every run on the bench of a worker each task is queued once, held, run or dropped. A drain goes on until
nothing is queued, even if the bodies that it runs queue more tasks, and each entry that it removes belongs to a
task whose body then has run, by the drain or by a joiner that came before.
-/

namespace TaskSpace

open Machine (queued)

namespace Bench

variable {β : Type} {n : Nat} {s : Searcher n} {b b' b₀ : Bench β} {act : Act β} {acts : List (Act β)}
  {turns more : List (Turn (Bench β) (Act β))} {turn : Turn (Bench β) (Act β)} {log : Log} {label : WorkerId}
  {t : TaskId} {cell : Cell β} {q' : Queues} {batch count : Nat}

/-! ## Runs -/

theorem conserved_start (s : Searcher n) (spaces : List Recorder) (hlabel : label ≠ Holder.unregistered)
    (space : SpaceId) :
    Conserved s (start n spaces label space : Bench β) (logOf s ([] : List (Turn (Bench β) (Act β)))) where
  entries := by
    refine ⟨by simp [start, Queues.empty], fun v _ => ?_, rfl, ?_, .refl _⟩
    · simp only [start, Queues.lane_empty]
    · simp [start, Queues.queued_empty, logOf]
  bodies := by
    refine ⟨.refl _, .nil, fun t ht => ?_, fun t cell hc => ?_, ?_, ⟨_, rfl, rfl, rfl, rfl, rfl, rfl⟩,
      fun _ hin => absurd hin List.not_mem_nil⟩
    · simp [logOf] at ht
    · cases t <;> cases hc
    · have hlabels : ∀ worker ∈ [(label, space)], worker.1 ≠ Holder.unregistered := by simpa using hlabel
      exact Roster.sound_fresh [] hlabels
  ran _ ht := nomatch ht

theorem allows_of_step (h : b.step s act = some b') : b.Allows s act := by
  unfold step at h
  split at h
  · assumption
  · cases h

theorem Conserved.along (h : Conserved s b (logOf s turns)) {last : Bench β}
    (ht : trail (Bench.step s) b acts = some (more, last)) : Conserved s last (logOf s (turns ++ more)) := by
  refine trail_induction_from (P := fun turns b => Conserved s b (logOf s turns))
    (fun turns b act after hb hstep => ?_) h ht
  obtain ⟨b', hb', hnext⟩ := hb.step (allows_of_step hstep)
  cases hb'.symm.trans hstep
  rw [logOf_concat]
  exact hnext

/-! ## Drains -/

/-- All that may be done on a bench while there is a drain. -/
inductive Drains (s : Searcher n) (b : Bench β) : Act β → Bench β → Prop where
  | spawn {sticky : Bool} {target : Target} {body : β} (ha : b.Allows s (.spawn sticky target body)) :
    Drains s b (.spawn sticky target body) (b.spawn s sticky target body)
  | join {t : TaskId} {b' : Bench β} (h : b.Settles b') : Drains s b (.join t) b'
  | finish {result : Except Payload Value} {b' : Bench β} (h : b.Settles b') : Drains s b (.finish result) b'
  | next {batch : Nat} {t : TaskId} {q' : Queues} {b' : Bench β} (hs : b.queues.search s batch = some (t, q'))
    (h : Settles { b with queues := q', draining := b.draining.map (· + 1) } b') : Drains s b (.next batch) b'
  | last {batch : Nat} (hs : b.queues.search s batch = none) (hb : b.bodies = []) :
    Drains s b (.next batch) { b with draining := none }

theorem step_drains (hd : b.draining.isSome) (h : b.step s act = some b') : Drains s b act b' := by
  have ha := allows_of_step h
  rw [step, if_pos ha] at h
  have hbusy : ¬b.Idle := fun hidle => by simp [hidle.2] at hd
  cases act with
  | spawn sticky target body =>
    cases h
    exact .spawn ha
  | find batch => exact absurd ha hbusy
  | run t => exact absurd ha.1 hbusy
  | drop t => exact absurd ha.1 hbusy
  | join t =>
    simp only [perform] at h
    split at h
    · cases h
      exact .join ⟨rfl, rfl, rfl, rfl⟩
    · exact .join (enter_settles h)
  | drain => exact absurd ha hbusy
  | next batch =>
    cases hs : b.queues.search s batch with
    | none =>
      simp only [perform, search, hs, Option.map_none, Option.some.injEq] at h
      subst h
      exact .last hs ha.1
    | some pair =>
      simp only [perform, search, hs, Option.map_some] at h
      exact .next hs (enter_settles h)
  | finish result => exact .finish (leave_frame h).1

/-- A drain that began at `b₀` and goes on at `b`: what was queued and what came is found or still queued, and
all that was found was run. -/
structure Draining (n : Nat) (b₀ b : Bench β) (log : Log) : Prop where
  lanes : b.queues.lanes.length = n
  counting : b.draining = some log.found.length
  entries : (queued b₀.queues ++ log.created).Perm (queued b.queues ++ log.found)
  ran : log.spent = log.found

theorem Draining.settle (h : Draining n b₀ b log) (hs : b.Settles b') : Draining n b₀ b' log :=
  ⟨hs.queues ▸ h.lanes, hs.draining ▸ h.counting, hs.queues ▸ h.entries, h.ran⟩

theorem Draining.step (h : Draining n b₀ b log) (hd : Drains s b act b') (hret : returned ⟨b, act, b'⟩ = none) :
    Draining n b₀ b' (log.next s ⟨b, act, b'⟩) := by
  cases hd with
  | spawn ha =>
    obtain ⟨w, hgrows, _⟩ := exists_grows h.lanes ha
    refine ⟨hgrows.lanes.trans h.lanes, ?_, ?_, ?_⟩
    · simpa [Log.next, found, spawn] using h.counting
    · simp only [Log.next, created, found, List.append_nil]
      rw [← List.append_assoc]
      refine (List.perm_append_singleton _ _).trans ((h.entries.cons _).trans ?_)
      exact hgrows.perm.symm.append_right log.found
    · simpa [Log.next, spent, found] using h.ran
  | join hs =>
    obtain ⟨hl, hc, he, hr⟩ := h.settle hs
    exact ⟨hl, by simpa [Log.next, found] using hc, by simpa [Log.next, created, found] using he,
      by simpa [Log.next, spent, found] using hr⟩
  | finish hs =>
    obtain ⟨hl, hc, he, hr⟩ := h.settle hs
    exact ⟨hl, by simpa [Log.next, found] using hc, by simpa [Log.next, created, found] using he,
      by simpa [Log.next, spent, found] using hr⟩
  | next hs hsettles =>
    have hyields := (Queues.search_takes hs).yields (h.lanes.symm ▸ s.known)
    refine ⟨hsettles.queues ▸ hyields.lanes.trans h.lanes, ?_, ?_, ?_⟩
    · rw [hsettles.draining, h.counting]
      simp [Log.next, found, search, hs]
    · simp only [Log.next, created, found, search, hs, List.append_nil, Option.map_some, Option.toList_some]
      rw [hsettles.queues]
      refine h.entries.trans ((hyields.perm.append_right log.found).trans ?_)
      rw [← List.append_assoc]
      exact (List.perm_append_singleton _ _).symm
    · simp [Log.next, spent, h.ran]
  | last => simp [returned, h.counting] at hret

theorem step_drain (h : b.step s .drain = some b') : b' = { b with draining := some 0 } := by
  rw [step, if_pos (allows_of_step h)] at h
  exact (Option.some.inj h).symm

theorem draining_start (hl : b.queues.lanes.length = n) :
    Draining n b { b with draining := some 0 } (logOf s [⟨b, .drain, { b with draining := some 0 }⟩]) :=
  ⟨hl, rfl, by simp [logOf, created, found], rfl⟩

theorem Draining.along (h : Draining n b₀ b (logOf s turns)) {last : Bench β}
    (ht : trail (Bench.step s) b acts = some (more, last)) (hmore : ∀ turn ∈ turns ++ more, returned turn = none) :
    Draining n b₀ last (logOf s (turns ++ more)) := by
  refine trail_induction_from
    (P := fun turns b => (∀ turn ∈ turns, returned turn = none) → Draining n b₀ b (logOf s turns))
    (fun turns b act after hb hstep hnone => ?_) (fun _ => h) ht hmore
  have hd := hb fun turn hin => hnone turn (List.mem_append_left _ hin)
  rw [logOf_concat]
  exact hd.step (step_drains (by rw [hd.counting]; rfl) hstep) (hnone _ (List.mem_append_right _ List.mem_cons_self))

theorem draining_of_trail (hl : b.queues.lanes.length = n) {last : Bench β}
    (ht : trail (Bench.step s) b (.drain :: acts) = some (more, last)) (hmore : ∀ turn ∈ more, returned turn = none) :
    Draining n b last (logOf s more) := by
  obtain ⟨after, rest, hfirst, hrest, rfl⟩ := trail_cons ht
  cases step_drain hfirst
  exact (draining_start hl).along hrest hmore

/-- The drain ends in a turn that finds nothing. -/
theorem Draining.returns (h : Draining n b₀ b log) (hd : Drains s b act b') (hret : returned ⟨b, act, b'⟩ = some count) :
    b.bodies = [] ∧ b' = { b with draining := none } ∧ count = log.found.length ∧
      ∃ batch, b.queues.search s batch = none := by
  cases hd with
  | spawn => simp [returned, spawn, h.counting] at hret
  | join hs | finish hs => simp [returned, hs.draining, h.counting] at hret
  | next hs hsettles => simp [returned, hsettles.draining, h.counting] at hret
  | last hs hb =>
    simp only [returned, h.counting, if_true, Option.some.injEq] at hret
    exact ⟨hb, rfl, hret.symm, _, hs⟩

/-! ## The law -/

/-- Where everything is at some moment: each task is queued once, held, run or dropped; a search hands out each
entry once; no body begins twice, and the storage counts those that began and those that are over. -/
structure Accounted (s : Searcher n) (b : Bench β) (log : Log) : Prop where
  created : log.created.Nodup
  places : log.created.Perm (queued b.queues ++ b.held ++ log.spent ++ log.dropped)
  found : log.found.Nodup
  handed : log.found.Perm (b.held ++ log.spent ++ log.dropped)
  once : log.begun.Nodup
  open_ : log.begun.Perm (log.ended ++ b.running)
  counted : ∃ st, b.ledger.roster.storages[storage]? = some st ∧ st.counters.registered = log.begun.length ∧
    st.counters.deregistered = log.ended.length ∧ log.begun.length = log.ended.length + b.bodies.length
  possible : ∀ act, b.Allows s act → (b.step s act).isSome

/-- A drain of what is queued at `b`, and of all that is created meanwhile, ended at `b'` with a count. `log` tells
of it, and `ended` lists the bodies that are over by then. -/
structure Drained (b b' : Bench β) (log : Log) (ended : List TaskId) (count : Nat) : Prop where
  empty : queued b'.queues = []
  idle : b'.Idle
  removed : log.found.Perm (queued b.queues ++ log.created)
  count : count = log.found.length
  ran : ∀ t ∈ queued b.queues ++ log.created, ended.count t = 1

theorem Conserved.accounted (h : Conserved s b log) : Accounted s b log := by
  obtain ⟨st, hst, hserves⟩ := h.bodies.served
  refine ⟨h.entries.nodup, ?_, h.entries.nodup_found, h.entries.held, h.bodies.once, h.bodies.open_,
    ⟨st, hst, hserves.registered, hserves.deregistered, ?_⟩, fun act ha => ?_⟩
  · refine h.entries.known.trans ((h.entries.held.append_left _).trans ?_)
    rw [← List.append_assoc, ← List.append_assoc]
  · simpa [running] using h.bodies.open_.length_eq
  · obtain ⟨b', hb', _⟩ := h.step ha
    rw [hb']
    rfl

/-- Where no entry is queued and no body runs, every task is over, unless it is held. -/
theorem Conserved.isTerminal (h : Conserved s b log) (hempty : queued b.queues = []) (hrested : b.bodies = [])
    (hc : b.cell? t = some cell) (ht : t ∉ b.held) : cell.state.isTerminal := by
  have hfits := h.bodies.cells t cell hc
  have hknown : t ∈ log.created := h.entries.isSome.1 (by rw [hc]; rfl)
  have hgone : t ∈ log.begun ∨ t ∈ log.dropped := by
    have hplace := h.accounted.places.mem_iff.1 hknown
    simp only [hempty, List.nil_append, List.mem_append, ht, false_or] at hplace
    exact hplace.imp_left (h.ran t)
  have hcreated : cell.state ≠ .created := fun he => by
    obtain ⟨hnew, hkept⟩ := hfits.waiting.1 (hfits.created.1 he)
    exact hgone.elim hnew hkept
  have hrunning : cell.state ≠ .running := fun he => by
    have hin := hfits.running.1 he
    simp [running, hrested] at hin
  cases hstate : cell.state with
  | created => exact absurd hstate hcreated
  | running => exact absurd hstate hrunning
  | completed | failed => rfl

/-- No task is pinned with another worker, so a search that finds nothing leaves nothing queued. -/
theorem Conserved.queued_eq_nil (h : Conserved s b log) (hs : b.queues.search s batch = none) :
    queued b.queues = [] := by
  obtain ⟨hinjector, hlane, hown⟩ := Queues.search_none h.entries.lanes hs
  refine Queues.queued_eq_nil.2 ⟨hinjector, fun v => ?_⟩
  by_cases hv : v = s.worker
  · rw [hv, hlane]
  · have hpinned := h.entries.pinned v hv
    have hempty := hown v
    cases hl : b.queues.lane v
    simp_all

theorem Conserved.drained (h : Conserved s b (logOf s turns))
    (hd : trail (Bench.step s) b (.drain :: acts) = some (more ++ [turn], b'))
    (hmore : ∀ turn ∈ more, returned turn = none) (hret : returned turn = some count) :
    Drained b b' (logOf s more) (logOf s (turns ++ more)).ended count := by
  obtain ⟨init, hacts, hinit, hstep, rfl⟩ := trail_concat hd
  cases init with
  | nil =>
    -- the turn that begins the drain does not end it
    cases hinit
    obtain ⟨hact, -⟩ := List.cons.inj hacts
    rw [← hact] at hstep
    simp [returned, step_drain hstep] at hret
  | cons first init =>
    obtain ⟨rfl, rfl⟩ := List.cons.inj hacts
    have hdraining := draining_of_trail h.entries.lanes hinit hmore
    have hlast := h.along hinit
    have hbusy : turn.before.draining.isSome := by rw [hdraining.counting]; rfl
    obtain ⟨hbodies, hafter, hcount, batch, hs⟩ := hdraining.returns (step_drains hbusy hstep) hret
    have hqueued := hlast.queued_eq_nil hs
    have hremoved : (queued b.queues ++ (logOf s more).created).Perm (logOf s more).found := by
      simpa [hqueued] using hdraining.entries
    refine ⟨by rw [hafter]; exact hqueued, by rw [hafter]; exact ⟨hbodies, rfl⟩, hremoved.symm, hcount, fun t ht => ?_⟩
    -- what was removed was run, so its body began, and all bodies are over
    have hspent : t ∈ (logOf s (turns ++ more)).spent := by
      have hin : t ∈ (logOf s more).spent := hdraining.ran ▸ hremoved.mem_iff.1 ht
      simp only [logOf, List.flatMap_append]
      exact List.mem_append_right _ hin
    have hover := hlast.bodies.open_
    simp only [running, hbodies, List.map_nil, List.append_nil] at hover
    rw [← hover.count_eq]
    exact hlast.bodies.once.count.trans (if_pos (hlast.ran t hspent))

/-- In every run on the bench of a new worker no queue entry is lost or doubled, and a drain that returns has
emptied the queues, and seen to it that all that was queued ran once. -/
theorem run_conserves (s : Searcher n) (spaces : List Recorder) (hlabel : label ≠ Holder.unregistered)
    (space : SpaceId) (h : trail (step s) (start n spaces label space : Bench β) acts = some (turns, b)) :
    Accounted s b (logOf s turns) ∧ ∀ acts more turn b' count,
      trail (step s) b (.drain :: acts) = some (more ++ [turn], b') → (∀ turn ∈ more, returned turn = none) →
        returned turn = some count → Drained b b' (logOf s more) (logOf s (turns ++ more)).ended count := by
  have hc := (conserved_start s spaces hlabel space).along h
  exact ⟨hc.accounted, fun acts more turn b' count hd hmore hret => hc.drained hd hmore hret⟩

theorem eq_some_concat {α γ : Type} {o : Option (List α × γ)} (h : o.isSome) (hne : (o.get h).1 ≠ []) :
    o = some ((o.get h).1.dropLast ++ [(o.get h).1.getLast hne], (o.get h).2) := by
  rw [List.dropLast_concat_getLast]
  exact (Option.some_get h).symm

/-- Task 1 was joined before the drain, and task 2 is joined by a body that the drain runs and that panics; task 7
is queued by another. All of them count, with tasks 3 and 6. -/
theorem run_conserves_draining :
    let s : Searcher 3 := ⟨0, by decide, 2, by decide, [2, 1], by decide⟩
    let before : List (Act Unit) :=
      [.spawn false .injector (), .spawn false .injector (), .spawn false (.other 1) (), .spawn true .worker (),
        .spawn false .worker (), .find 1, .find 1, .drop 5, .join 1, .spawn false .worker (), .finish (.ok .none),
        .run 4, .finish (.error (.fixed "boom"))]
    let during : List (Act Unit) :=
      [.next 1, .join 2, .finish (.ok .none), .finish (.error (.fixed "boom")), .next 1, .next 1, .next 1,
        .spawn true .worker (), .finish (.ok .none), .next 1, .finish (.ok .none), .next 1]
    let first := (trail (step s) (start 3 [] 1 0) before).get (by decide)
    let second := (trail (step s) first.2 (.drain :: during)).get (by decide)
    let more := second.1.dropLast
    let turn := second.1.getLast (by decide)
    (logOf s first.1).begun = [1, 4] ∧ (logOf s first.1).dropped = [5] ∧
      (logOf s more).found = [6, 1, 2, 3, 7] ∧ returned turn = some 5 ∧
      Accounted s first.2 (logOf s first.1) ∧
      Drained first.2 second.2 (logOf s more) (logOf s (first.1 ++ more)).ended 5 := by
  intro s before during first second more turn
  have hfirst : trail (step s) (start 3 [] 1 0) before = some first := (Option.some_get (by decide)).symm
  have hsecond : trail (step s) first.2 (.drain :: during) = some (more ++ [turn], second.2) :=
    eq_some_concat _ _
  have hmore : ∀ turn ∈ more, returned turn = none := by decide
  have hret : returned turn = some 5 := by decide
  obtain ⟨haccounted, hdrained⟩ := run_conserves s [] (by decide) 0 hfirst
  exact ⟨by decide, by decide, by decide, hret, haccounted, hdrained _ more turn second.2 5 hsecond hmore hret⟩

end Bench

end TaskSpace

import TaskSpace.Proofs.Machine.Accounted

/-!
# Tasks run once

In every run the body of a task is taken once, by a thread or by its queue entry when that is dropped,
and its outcome is written once, before the one step that makes the task terminal. Whoever waits for the
task gets that outcome.
-/

namespace TaskSpace

variable {σ β : Type}

/-! ## What a life shows -/

/-- The order in which the events of a task come. -/
def Event.rank : Event → Nat
  | spawned => 0
  | taken _ => 1
  | started _ => 2
  | returned _ _ => 3
  | published _ => 4
  | settled => 5

/-- Who takes the body. -/
def Event.taker? : Event → Option (Option ThreadId)
  | taken taker => some taker
  | _ => none

/-- The ways in which the state of a task changes. -/
def TaskState.follows : TaskState → TaskState → Bool
  | running, created | completed, running | failed, running | failed, created => true
  | _, _ => false

namespace Life

variable {t : TaskId} {cell cell' : Cell β} {c : Option (Cell β)} {es more : List Event}
  {hand hand' : Option Hand}

theorem ordered (h : Life t c es hand) : es.Pairwise fun e e' => e.rank < e'.rank := by
  cases h <;> simp [Event.rank]

/-- A body that is gone was taken once. -/
theorem taken_once (h : Life t (some cell) es hand) (hb : cell.body = none) :
    ∃ taker, es.filterMap Event.taker? = [taker] := by
  cases h with
  | queued => cases hb
  | _ => exact ⟨_, rfl⟩

theorem outcome_eq (h : Life t (some cell) es hand) (ht : cell.state.isTerminal) :
    ∃ outcome, cell.outcome = some outcome ∧ (cell.state = .completed ↔ outcome.isOk) ∧
      (∀ v, outcome = .ok v ↔ ∃ id, .returned id (.ok v) ∈ es) ∧
      (∀ payload, outcome = .error (.panicked t payload) ↔ ∃ id, .returned id (.error payload) ∈ es) ∧
      (outcome = .error (.cancelled t) ↔ ∀ id, .started id ∉ es) ∧
      (outcome = .error (.cancelled t) ↔ .taken none ∈ es) := by
  cases h with
  | @finished sticky name id result =>
    refine ⟨_, rfl, ?_⟩
    cases result with
    | ok v => simp [Except.isOk, Except.toBool, eq_comm]
    | error payload =>
      simp [Except.isOk, Except.toBool, JoinError.panicked, JoinError.cancelled, eq_comm]
  | dropped =>
    refine ⟨_, rfl, ?_⟩
    simp [Except.isOk, Except.toBool, JoinError.panicked, JoinError.cancelled]
  | _ => cases ht

/-- What is seen of a task grows, and its cell goes along. -/
theorem follows (h : Life t (some cell) es hand) (h' : Life t c (es ++ more) hand')
    (hmore : .settled ∈ more → ∀ id, .started id ∉ more) :
    ∃ cell', c = some cell' ∧ (cell'.state = cell.state ∨ cell'.state.follows cell.state) ∧
      (cell.outcome.isSome → cell'.outcome = cell.outcome) ∧ (cell.body = none → cell'.body = none) := by
  generalize hes : es ++ more = seen at h'
  -- most lives do not go on as another does
  cases h <;> cases h' <;> simp [Cell.spawned] at hes ⊢
  all_goals simp_all [TaskState.follows]
  all_goals split <;> simp

end Life

/-- The thread is in a wait for a task: it begins one, is in one, or is back from running the task. -/
def Thread.WaitsFor (th : Thread σ) (kind : WaitKind) (t : TaskId) (next : Outcome → Body σ) : Prop :=
  th.Awaits kind t next ∨
    ∃ u completed frames, th.control = .settle u completed ∧ th.frames = .joiner kind t next :: frames

/-- A wait for the task goes on, or it ended with the outcome of the task, which is terminal. -/
def Machine.Answers (m : Machine σ) (th th' : Thread σ) (kind : WaitKind) (t : TaskId)
    (next : Outcome → Body σ) : Prop :=
  (∃ cell outcome, m.cell? t = some cell ∧ cell.state.isTerminal ∧ cell.outcome = some outcome ∧
      th'.control = .run (next outcome)) ∨
    th'.control = .wait kind t next ∨
    ∃ storage body, th'.control = .begin t storage body ∧ th'.frames = .joiner kind t next :: th.frames

/-! ## Dropping queue entries -/

namespace Scene

variable {s s' : Scene σ} {es : TaskId → List Event} {t : TaskId} {place : Nat} {d : Drop}

/-- A part of a drop is accounted for once it is known what becomes of each task, as far as the entries
being dropped have it. -/
theorem Accounted.dropTurn (h : s.Accounted es) (hcrash : s.machine.crash = none) {m : Machine σ}
    (hthreads : m.threads = s.machine.threads) (hm : m.crash = none) {drops : List Drop}
    {es' : TaskId → List Event}
    (hlife : ∀ t hand, Life t (s.machine.cell? t) (es t) hand →
      s.drops.flatMap (Drop.stages t) = Hand.of hand none →
      ∃ hand', Life t (m.cell? t) (es' t) hand' ∧ drops.flatMap (Drop.stages t) = Hand.of hand' none ∧
        ∀ other, other ≠ none → Hand.of hand' other = Hand.of hand other) : Accounted ⟨m, drops⟩ es' where
  life t := by
    obtain ⟨hand, hl, hhand⟩ := h.life t
    obtain ⟨hand', hl', hown, hothers⟩ := hlife t hand hl (hhand hcrash none)
    refine ⟨hand', hl', fun _ who => ?_⟩
    cases who with
    | none => exact hown
    | some id =>
      rw [hothers (some id) (by simp), ← hhand hcrash (some id)]
      simp [stages, hthreads]
  paired id th hth := h.paired id th (hthreads ▸ hth)
  unbroken violation he := by cases hm.symm.trans he

theorem Accounted.drop (h : s.Accounted es) (hcrash : s.machine.crash = none) (hs : s.drop t = some s') :
    s'.Accounted fun u => es u ++ events u ⟨s, .drop t, s'⟩ := by
  obtain ⟨cell, hc, hs⟩ := Option.bind_eq_some_iff.1 hs
  cases hb : cell.body with
  | none =>
    simp only [Cell.take, hb, Option.map_none] at hs
    cases hs
    have hev : ∀ u, events u ⟨s, .drop t, s⟩ = [] := by
      intro u
      by_cases hu : t = u
      · simp [events, ← hu, hc, Cell.waiting, hb]
      · simp [events, hu]
    simpa [hev] using h
  | some body =>
    simp only [Cell.take, hb, Option.map_some] at hs
    cases hs
    refine h.dropTurn (m := s.machine.setCell { cell with body := none }) hcrash rfl hcrash
      fun u hand hl hs => ?_
    have hid : cell.id = t := (h.fresh t cell hc).1
    have hcell := Machine.cell?_setCell hc (show ({ cell with body := none } : Cell (Body σ)).id = t from hid) u
    by_cases hu : u = t
    · subst hu
      rw [if_pos rfl] at hcell
      rw [hcell]
      obtain ⟨hl', rfl⟩ := (hc ▸ hl).drop hb
      refine Life.grasp (.publishing (.error (.cancelled u))) hs (by simp [Drop.stages]) ?_
      simpa [events, hc, Cell.waiting, hb] using hl'
    · exact hl.keep hs (hcell.trans (if_neg hu)) (by simp [events, Ne.symm hu])
        (by simp [Drop.stages, Ne.symm hu])

theorem flatMap_split {α : Type} {ds : List Drop} (f : Drop → List α) (h : ds[place]? = some d) :
    ds.flatMap f = (ds.take place).flatMap f ++ (f d ++ (ds.drop (place + 1)).flatMap f) := by
  obtain ⟨hlt, rfl⟩ := List.getElem?_eq_some_iff.1 h
  have hsplit : ds = ds.take place ++ ds[place] :: ds.drop (place + 1) := by
    rw [← List.drop_eq_getElem_cons hlt, List.take_append_drop]
  exact (congrArg (List.flatMap f) hsplit).trans (by rw [List.flatMap_append, List.flatMap_cons])

/-- Only one entry of a task is being dropped. -/
theorem stages_of_drop {hand : Option Hand} (stage : Stage) (hd : s.drops[place]? = some d)
    (hs : s.drops.flatMap (Drop.stages t) = Hand.of hand none) (hst : d.stages t = [stage]) :
    hand = some (none, stage) ∧ (s.drops.take place).flatMap (Drop.stages t) = [] ∧
      (s.drops.drop (place + 1)).flatMap (Drop.stages t) = [] := by
  rw [flatMap_split _ hd, hst] at hs
  cases hand with
  | none => simp [Hand.of] at hs
  | some hand =>
    obtain ⟨owner, found⟩ := hand
    simp only [Hand.of] at hs
    split at hs
    · rename_i ho
      have hlen := congrArg List.length hs
      simp only [List.length_append, List.length_singleton] at hlen
      have hbefore : (s.drops.take place).flatMap (Drop.stages t) = [] :=
        List.eq_nil_of_length_eq_zero (by omega)
      have hafter : (s.drops.drop (place + 1)).flatMap (Drop.stages t) = [] :=
        List.eq_nil_of_length_eq_zero (by omega)
      simp only [hbefore, hafter, List.nil_append, List.append_nil, List.cons.injEq, and_true] at hs
      exact ⟨by rw [ho, hs], hbefore, hafter⟩
    · simp at hs

theorem Accounted.finishDrop (h : s.Accounted es) (hcrash : s.machine.crash = none)
    (hs : s.finishDrop place = some s') :
    s'.Accounted fun u => es u ++ events u ⟨s, .finishDrop place, s'⟩ := by
  obtain ⟨d, hd, hs⟩ := Option.bind_eq_some_iff.1 hs
  obtain ⟨cell, hc, hs⟩ := Option.bind_eq_some_iff.1 hs
  have hid : cell.id = d.task := (h.fresh d.task cell hc).1
  -- the entry has its task, and no other has
  have hown : ∃ hand, Life d.task (some cell) (es d.task) hand ∧
      s.drops.flatMap (Drop.stages d.task) = Hand.of hand none := by
    obtain ⟨hand, hl, hhand⟩ := h.life d.task
    exact ⟨hand, hc ▸ hl, hhand hcrash none⟩
  obtain ⟨hand, hl, hhand⟩ := hown
  have hothers : ∀ (drops : List Drop) (d' : Drop) {u}, u ≠ d.task → d'.task = d.task →
      drops = s.drops.take place ++ d' :: s.drops.drop (place + 1) ∨
        drops = s.drops.take place ++ s.drops.drop (place + 1) →
      drops.flatMap (Drop.stages u) = s.drops.flatMap (Drop.stages u) := by
    rintro drops d' u hne hd' (rfl | rfl) <;> rw [flatMap_split _ hd] <;> simp [Drop.stages, hd', Ne.symm hne]
  have hlt := (List.getElem?_eq_some_iff.1 hd).1
  cases hw : d.written with
  | false =>
    simp only [hw, if_false, Bool.false_eq_true] at hs
    cases hs
    obtain ⟨rfl, hbefore, hafter⟩ := stages_of_drop
      (.publishing (.error (.cancelled d.task))) hd hhand (by simp [Drop.stages, hw])
    have hset : s.drops.set place { d with written := true } =
        s.drops.take place ++ { d with written := true } :: s.drops.drop (place + 1) := by
      rw [List.set_eq_take_append_cons_drop, if_pos hlt]
    refine h.dropTurn (m := s.machine.setCell (cell.publish _)) hcrash rfl hcrash fun u other hlu hsu => ?_
    have hcell := Machine.cell?_setCell hc (show (cell.publish (.error (.cancelled d.task))).id = d.task from hid) u
    by_cases hu : u = d.task
    · subst hu
      rw [if_pos rfl] at hcell
      rw [hcell]
      refine Life.advance (.settling false) hsu hhand ?_ fun hother => ?_
      · rw [hset]
        simp [hbefore, hafter, Drop.stages]
      · subst hother
        simpa [events, hd, Drop.stages, hw] using (hc ▸ hlu).publish
    · exact hlu.keep hsu (hcell.trans (if_neg hu)) (by simp [events, hd, Drop.stages, Ne.symm hu])
        (hothers _ { d with written := true } hu rfl (.inl hset))
  | true =>
    simp only [hw, if_true] at hs
    obtain ⟨rfl, hbefore, hafter⟩ := stages_of_drop (.settling false) hd hhand
      (by simp [Drop.stages, hw])
    have hlive := hl.settle.1
    simp only [Cell.settle, hlive, if_false, Bool.false_eq_true] at hs
    cases hs
    have hset := s.drops.eraseIdx_eq_take_drop_succ place
    refine h.dropTurn (m := s.machine.setCell (cell.settled false)) hcrash rfl hcrash fun u other hlu hsu => ?_
    have hcell := Machine.cell?_setCell hc (show (cell.settled false).id = d.task from hid) u
    by_cases hu : u = d.task
    · subst hu
      rw [if_pos rfl] at hcell
      rw [hcell]
      refine Life.finish hsu hhand ?_ fun hother => ?_
      · rw [hset]
        simp [hbefore, hafter]
      · subst hother
        simpa [events, hd, Drop.stages, hw] using (hc ▸ hlu).settle.2
    · exact hlu.keep hsu (hcell.trans (if_neg hu)) (by simp [events, hd, Drop.stages, Ne.symm hu])
        (hothers _ d hu rfl (.inr hset))

/-! ## Runs -/

/-- What a run does to a task. -/
def story (turns : List (Turn (Scene σ) Act)) (t : TaskId) : List Event := turns.flatMap (events t)

theorem story_append (turns : List (Turn (Scene σ) Act)) (turn : Turn (Scene σ) Act) (t : TaskId) :
    story (turns ++ [turn]) t = story turns t ++ events t turn := by
  simp [story]

theorem Accounted.act {act : Act} (h : s.Accounted es) (hs : s.act act = some s') :
    s'.Accounted fun u => es u ++ events u ⟨s, act, s'⟩ := by
  unfold Scene.act at hs
  split at hs
  · cases hs
  · rename_i hcrash
    have hcrash := Option.not_isSome_iff_eq_none.1 hcrash
    cases act with
    | step id choice =>
      obtain ⟨m, hm, he⟩ := Option.map_eq_some_iff.1 hs
      cases he
      obtain ⟨th, rest, th', hth, _, hmove, rfl⟩ := Machine.exists_move hm
      simp only [events, hth, Option.elim_some]
      exact h.move hcrash hth hmove
    | drop t => exact h.drop hcrash hs
    | finishDrop place => exact h.finishDrop hcrash hs

theorem accounted_start {parallelism : Nat} {spaces : List Recorder} {shared : σ} {body : Body σ} :
    Accounted ⟨Machine.start parallelism spaces shared body, []⟩ fun _ => [] where
  life t := by
    refine ⟨none, ?_, fun _ who => ?_⟩
    · cases t <;> exact .unborn
    · rcases who with _ | _ | id <;> rfl
  paired id th hth := by
    cases id with
    | zero =>
      cases hth
      exact ⟨trivial, fun he => by cases he⟩
    | succ id => cases hth
  unbroken violation he := by cases he

/-- What a turn of a run does right: states only move on, what is written stays, and a wait ends with the
outcome of a terminal task, or goes on. -/
structure Proper (turn : Turn (Scene σ) Act) : Prop where
  moved : ∀ t cell, turn.before.machine.cell? t = some cell → ∃ cell', turn.after.machine.cell? t = some cell' ∧
    (cell'.state = cell.state ∨ cell'.state.follows cell.state) ∧
    (cell.outcome.isSome → cell'.outcome = cell.outcome) ∧ (cell.body = none → cell'.body = none)
  answered : ∀ id choice th kind t next, turn.act = .step id choice →
    turn.before.machine.threads[id]? = some th → th.WaitsFor kind t next →
    ∃ th', turn.after.machine.threads[id]? = some th' ∧ turn.after.machine.Answers th th' kind t next

theorem events_apart (turn : Turn (Scene σ) Act) (t : TaskId) (h : .settled ∈ events t turn) (id : ThreadId) :
    .started id ∉ events t turn := by
  obtain ⟨before, act, after⟩ := turn
  cases act with
  | step other choice =>
    cases hth : before.machine.threads[other]? with
    | none => simp [events, hth]
    | some th =>
      simp only [events, hth, Option.elim_some, Thread.events] at h ⊢
      split at h <;> simp_all
  | drop u => simp [events]
  | finishDrop place =>
    cases hd : before.drops[place]? with
    | none => simp [events, hd]
    | some d => cases hw : d.written <;> simp [events, hd, hw]

variable {id : ThreadId} {th th' : Thread σ} {rest : Machine σ} {kind : WaitKind} {next : Outcome → Body σ}

/-- A wait breaks no promise. -/
theorem Accounted.not_aborts (h : s.Accounted es) (hcrash : s.machine.crash = none)
    (hth : s.machine.threads[id]? = some th) (hw : th.WaitsFor kind t next) {before : Machine σ} {crash : Crash}
    (ha : s.machine.Aborts id th before crash) : False := by
  have hviolation : ∃ violation, crash = .task violation := by
    rcases hw with (hctl | hctl) | ⟨_, _, _, hctl, _⟩ <;>
      cases ha with
      | ranTwice | completedTwice | undelivered | unresumed => exact ⟨_, rfl⟩
      | noSlot _ ha =>
        rcases ha with ⟨_, _, ha, _⟩ | ⟨ha, _⟩ | ⟨_, _, _, ha, _⟩ <;> cases hctl.symm.trans ha
      | _ => cases hctl.symm.trans (by assumption)
  obtain ⟨violation, rfl⟩ := hviolation
  exact (h.crashed hcrash hth ha).unbroken violation rfl

theorem Accounted.answers_await (h : s.Accounted es) (hcrash : s.machine.crash = none)
    (hth : s.machine.threads[id]? = some th) (hmove : s.machine.Move id th rest th')
    (hw : th.Awaits kind t next) : (rest.setThread id th').Answers th th' kind t next := by
  have hdelivered : ∀ {kind' t' next' cell outcome}, th.Awaits kind' t' next' → s.machine.cell? t' = some cell →
      cell.state.isTerminal → cell.give kind' = .ok outcome →
      s.machine.Answers th (th.continueWith (next' outcome)) kind t next := by
    intro kind' t' next' cell outcome ha hc ht hg
    obtain ⟨found, hfound, hg'⟩ := h.give hc ht kind'
    cases hg.symm.trans hg'
    rcases hw with hctl | hctl <;> rcases ha with ha | ha <;> cases hctl.symm.trans ha <;>
      exact .inl ⟨_, _, hc, ht, hfound, rfl⟩
  rcases (show _ ∨ _ from hw) with hctl | hctl <;>
    cases hmove with
    | delivered ha hc ht hg => exact hdelivered ha hc ht hg
    | crashed ha => exact (h.not_aborts hcrash hth (.inl hw) ha).elim
    | blocked ha => cases hctl.symm.trans ha <;> exact .inr (.inl rfl)
    | nested ha => cases hctl.symm.trans ha <;> exact .inr (.inr ⟨_, _, rfl, rfl⟩)
    | answered ha hanswer => cases hctl.symm.trans ha <;> cases hanswer
    | @ended result ha | @returned result ha => cases result <;> cases hctl.symm.trans ha
    | _ => cases hctl.symm.trans (by assumption)

theorem Accounted.answers_joiner (h : s.Accounted es) (hcrash : s.machine.crash = none)
    (hth : s.machine.threads[id]? = some th) (hmove : s.machine.Move id th rest th') {u : TaskId}
    {completed : Bool} {frames : List (Frame σ)} (hctl : th.control = .settle u completed)
    (hf : th.frames = .joiner kind t next :: frames) :
    (rest.setThread id th').Answers th th' kind t next := by
  cases hmove with
  | @resumed _ _ cell _ _ _ _ waited outcome ha hc hlive hframes hwaited hg =>
    cases hctl.symm.trans ha
    cases hf.symm.trans hframes
    obtain ⟨rfl, rfl, found, hfound, hg'⟩ := h.give_settled hcrash hth hctl hc hf hwaited
    cases hg.symm.trans hg'
    exact .inl ⟨_, _, hwaited, by cases completed <;> rfl, hfound, rfl⟩
  | settled ha hc hlive hframes hpast =>
    cases hf.symm.trans hframes
    cases hpast
  | crashed ha => exact (h.not_aborts hcrash hth (.inr ⟨_, _, _, hctl, hf⟩) ha).elim
  | delivered ha => rcases ha with ha | ha <;> cases hctl.symm.trans ha
  | _ => cases hctl.symm.trans (by assumption)

theorem Accounted.proper {act : Act} (h : s.Accounted es) (hs : s.act act = some s') :
    Proper ⟨s, act, s'⟩ where
  moved t cell hc := by
    obtain ⟨hand, hl, _⟩ := h.life t
    obtain ⟨hand', hl', _⟩ := (h.act hs).life t
    rw [show s.machine.cell? t = some cell from hc] at hl
    exact hl.follows hl' (events_apart _ t)
  answered id choice th kind t next hact hth hw := by
    cases hact
    unfold Scene.act at hs
    split at hs
    · cases hs
    · rename_i hcrash
      have hcrash := Option.not_isSome_iff_eq_none.1 hcrash
      obtain ⟨m, hm, he⟩ := Option.map_eq_some_iff.1 hs
      cases he
      obtain ⟨found, rest, th', hfound, _, hmove, rfl⟩ := Machine.exists_move hm
      cases hth.symm.trans hfound
      refine ⟨th', hmove.self hth, ?_⟩
      rcases hw with ha | ⟨_, _, _, hctl, hf⟩
      · exact h.answers_await hcrash hth hmove ha
      · exact h.answers_joiner hcrash hth hmove hctl hf

/-- What a run of a machine does with tasks. `Life` says it in full, and the rest follows. -/
structure RunsOnce (turns : List (Turn (Scene σ) Act)) (s : Scene σ) : Prop where
  unbroken : ∀ violation, s.machine.crash ≠ some (.task violation)
  lives : ∀ t, ∃ hand, Life t (s.machine.cell? t) (story turns t) hand
  ordered : ∀ t, (story turns t).Pairwise fun e e' => e.rank < e'.rank
  taken : ∀ t cell, s.machine.cell? t = some cell → cell.body = none →
    ∃ taker, (story turns t).filterMap Event.taker? = [taker]
  outcome : ∀ t cell, s.machine.cell? t = some cell → cell.state.isTerminal →
    ∃ outcome, cell.outcome = some outcome ∧ (cell.state = .completed ↔ outcome.isOk) ∧
      (∀ v, outcome = .ok v ↔ ∃ id, .returned id (.ok v) ∈ story turns t) ∧
      (∀ payload, outcome = .error (.panicked t payload) ↔ ∃ id, .returned id (.error payload) ∈ story turns t) ∧
      (outcome = .error (.cancelled t) ↔ ∀ id, .started id ∉ story turns t) ∧
      (outcome = .error (.cancelled t) ↔ .taken none ∈ story turns t)
  proper : ∀ turn ∈ turns, Proper turn
  /-- A wait for a terminal task ends at once, whatever else is going on. -/
  prompt : s.machine.crash = none → ∀ id th kind t next cell, s.machine.threads[id]? = some th →
    th.Awaits kind t next → s.machine.cell? t = some cell → cell.state.isTerminal → ∀ choice,
    ∃ outcome, cell.outcome = some outcome ∧
      s.machine.step id choice = some (s.machine.setThread id (th.continueWith (next outcome)))

theorem Accounted.prompt {cell : Cell (Body σ)} (h : s.Accounted es) (hcrash : s.machine.crash = none)
    (hth : s.machine.threads[id]? = some th) (hw : th.Awaits kind t next) (hc : s.machine.cell? t = some cell)
    (ht : cell.state.isTerminal) (choice : Choice) : ∃ outcome, cell.outcome = some outcome ∧
      s.machine.step id choice = some (s.machine.setThread id (th.continueWith (next outcome))) := by
  obtain ⟨outcome, hfound, hg⟩ := h.give hc ht kind
  refine ⟨outcome, hfound, ?_⟩
  rcases hw with hctl | hctl
  · simp [Machine.step, hcrash, hth, Machine.stepThread, hctl, Machine.runBody, Machine.beginWait, hc, ht,
      Machine.deliver_eq, hg]
  · simp [Machine.step, hcrash, hth, Machine.stepThread, hctl, hc, ht, Machine.deliver_eq, hg]

variable {parallelism : Nat} {spaces : List Recorder} {shared : σ} {body : Body σ} {acts : List Act}
  {turns : List (Turn (Scene σ) Act)}

/-- In every run, up to any point of it, with queue entries dropped at any time: a task's body is taken
once, its outcome is written once and then stands, and every wait gives that outcome. -/
theorem run_tasks_once
    (hrun : trail act ⟨Machine.start parallelism spaces shared body, []⟩ acts = some (turns, s)) :
    s.RunsOnce turns := by
  have hinv : s.Accounted (story turns) ∧ ∀ turn ∈ turns, Proper turn := by
    refine trail_induction (P := fun turns s => s.Accounted (story turns) ∧ ∀ turn ∈ turns, Proper turn)
      (fun turns s act after h hstep => ?_) ⟨accounted_start, fun turn hm => by cases hm⟩ hrun
    refine ⟨?_, fun turn hm => ?_⟩
    · rw [funext (story_append turns _)]
      exact h.1.act hstep
    · rcases List.mem_append.1 hm with hm | hm
      · exact h.2 turn hm
      · cases List.mem_singleton.1 hm
        exact h.1.proper hstep
  obtain ⟨hacc, hproper⟩ := hinv
  have hlife : ∀ {t cell}, s.machine.cell? t = some cell → ∃ hand, Life t (some cell) (story turns t) hand := by
    intro t cell hc
    obtain ⟨hand, hl, _⟩ := hacc.life t
    exact ⟨hand, hc ▸ hl⟩
  exact {
    unbroken := hacc.unbroken
    lives := fun t => (hacc.life t).imp fun _ hl => hl.1
    ordered := fun t => by
      obtain ⟨hand, hl, _⟩ := hacc.life t
      exact hl.ordered
    taken := fun t cell hc hb => by
      obtain ⟨hand, hl⟩ := hlife hc
      exact hl.taken_once hb
    outcome := fun t cell hc ht => by
      obtain ⟨hand, hl⟩ := hlife hc
      exact hl.outcome_eq ht
    proper := hproper
    prompt := fun hcrash _ _ _ _ _ _ hth hw hc ht => hacc.prompt hcrash hth hw hc ht }

/-- Gets and joins a task that it runs itself, and leaves another in its queue. -/
def joining : Body Unit :=
  .spawn none ⟨false, none⟩ (.finish .none) fun
  | .ok first =>
    .wait .get first fun _ => .wait .join first fun _ =>
    .spawn none ⟨false, none⟩ (.panic .addOverflow) fun _ => .finish .none
  | .error payload => .panic payload

/-- The entry of the second task is dropped in three parts, while a thread steps. -/
theorem run_tasks_once_dropping :
    let body : Body Unit := .build (Settings.new .localOnly) none fun _ => .blockOn 0 joining fun _ => .finish .none
    let step : Act := .step 0 ⟨false, 0, .nothing⟩
    let acts := List.replicate 13 step ++ [.drop 2, step, .finishDrop 0, step, .finishDrop 0]
    ∃ turns s, trail act ⟨Machine.start 1 [] () body, []⟩ acts = some (turns, s) ∧ s.RunsOnce turns ∧
      (story turns 1).map Event.rank = [0, 1, 2, 3, 4, 5] ∧ (story turns 2).map Event.rank = [0, 1, 4, 5] := by
  intro body step acts
  have hshown : ((trail act ⟨Machine.start 1 [] () body, []⟩ acts).map fun run =>
      ((story run.1 1).map Event.rank, (story run.1 2).map Event.rank)) =
        some ([0, 1, 2, 3, 4, 5], [0, 1, 4, 5]) := by decide
  obtain ⟨⟨turns, s⟩, hrun, hshown⟩ := Option.map_eq_some_iff.1 hshown
  simp only [Prod.mk.injEq] at hshown
  exact ⟨turns, s, hrun, run_tasks_once hrun, hshown⟩

end Scene
end TaskSpace

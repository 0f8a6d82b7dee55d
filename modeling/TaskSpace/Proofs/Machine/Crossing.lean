import TaskSpace.Proofs.Machine.Staff

/-!
# Where a task runs when there are several runtimes

Queues never mix: what a thread finds it runs with a storage of the runtime that the task was spawned on. Only
a join takes a task elsewhere, since a thread that joins a queued task runs it with its own storage, whatever
runtime it works for.
-/

namespace TaskSpace

open Machine (queued choose)

variable {σ : Type}

namespace Queues

variable {q q' : Queues} {v w : WorkerId} {t task : TaskId} {l : Lane}

/-- A lane that is put into the queues brings its own tasks and no others. -/
theorem mem_queued_setLane (h : t ∈ queued (q.setLane v l)) : t ∈ queued q ∨ t ∈ l.pinned ∨ t ∈ l.own := by
  rcases List.mem_append.1 h with hi | hl
  · exact .inl (List.mem_append_left _ hi)
  · obtain ⟨lane, hlane, ht⟩ := List.mem_flatMap.1 hl
    rcases List.mem_or_eq_of_mem_set hlane with hlane | rfl
    · exact .inl (List.mem_append_right _ (List.mem_flatMap.2 ⟨lane, hlane, ht⟩))
    · exact .inr (List.mem_append.1 ht)

theorem mem_of_inject (h : t ∈ queued (q.inject task)) : t = task ∨ t ∈ queued q := by
  rcases mem_queued.1 h with hi | hl
  · rcases List.mem_append.1 hi with hi | hi
    · exact .inr (mem_queued.2 (.inl hi))
    · exact .inl (List.mem_singleton.1 hi)
  · exact .inr (mem_queued.2 (.inr hl))

theorem mem_of_add {sticky : Bool} (h : t ∈ queued (q.add w sticky task)) : t = task ∨ t ∈ queued q := by
  have hpinned : t ∈ (q.lane w).pinned → t ∈ queued q := fun h => mem_queued.2 (.inr ⟨w, .inl h⟩)
  have hown : t ∈ (q.lane w).own → t ∈ queued q := fun h => mem_queued.2 (.inr ⟨w, .inr h⟩)
  rcases mem_queued_setLane h with h | h
  · exact .inr h
  · cases sticky with
    | true =>
      rcases h with h | h
      · exact (List.mem_cons.1 h).imp_right hpinned
      · exact .inr (hown h)
    | false =>
      rcases h with h | h
      · exact .inr (hpinned h)
      · exact (List.mem_cons.1 h).imp_right hown

/-- A find takes what was queued, and leaves nothing that was not. -/
theorem choose_subset {force contended : Bool} {choice : Choice}
    (h : choose q w force contended choice = some (some (task, q'))) :
    task ∈ queued q ∧ ∀ t ∈ queued q', t ∈ queued q := by
  have hpinned : ∀ {t v}, t ∈ (q.lane v).pinned → t ∈ queued q := fun h => mem_queued.2 (.inr ⟨_, .inl h⟩)
  have hown : ∀ {t v}, t ∈ (q.lane v).own → t ∈ queued q := fun h => mem_queued.2 (.inr ⟨_, .inr h⟩)
  cases choose_takes h with
  | @injected rest hi batch =>
    have hrest : ∀ t ∈ rest, t ∈ queued q := fun t ht => mem_queued.2 (.inl (hi ▸ List.mem_cons_of_mem _ ht))
    refine ⟨mem_queued.2 (.inl (hi ▸ List.mem_cons_self)), fun t ht => ?_⟩
    rcases mem_queued_setLane ht with ht | ht | ht
    · rcases List.mem_append.1 ht with ht | ht
      · exact hrest t (List.mem_of_mem_drop ht)
      · exact List.mem_append_right _ ht
    · exact hpinned ht
    · rcases List.mem_append.1 ht with ht | ht
      · exact hrest t (List.mem_of_mem_take ht)
      · exact hown ht
  | pinned hp =>
    refine ⟨hpinned (hp ▸ List.mem_cons_self), fun t ht => ?_⟩
    rcases mem_queued_setLane ht with ht | ht | ht
    · exact ht
    · exact hpinned (hp ▸ List.mem_cons_of_mem _ ht)
    · exact hown ht
  | own ho =>
    refine ⟨hown (ho ▸ List.mem_cons_self), fun t ht => ?_⟩
    rcases mem_queued_setLane ht with ht | ht | ht
    · exact ht
    · exact hpinned ht
    · exact hown (ho ▸ List.mem_cons_of_mem _ ht)
  | stolen v ho =>
    refine ⟨hown (ho ▸ List.mem_append_right _ List.mem_cons_self), fun t ht => ?_⟩
    rcases mem_queued_setLane ht with ht | ht | ht
    · exact ht
    · exact hpinned ht
    · exact hown (ho ▸ List.mem_append_left _ ht)

end Queues

namespace Machine

variable {m m' rest : Machine σ} {id : ThreadId} {th th' : Thread σ} {t : TaskId} {r : RuntimeId}
  {storage : StorageId}

/-! ## The runtime of a task -/

/-- The runtime that a task was spawned on. -/
def runtimeOf (m : Machine σ) (t : TaskId) : Option RuntimeId := (m.task? t).map Spawned.runtime

theorem exists_runtimeOf {cell : Cell (Body σ)} (hc : m.cell? t = some cell) : ∃ r, m.runtimeOf t = some r := by
  obtain ⟨spawned, hs, _⟩ := Option.map_eq_some_iff.1 hc
  exact ⟨spawned.runtime, by rw [runtimeOf, hs]; rfl⟩

theorem runtimeOf_setCell (m : Machine σ) (cell : Cell (Body σ)) (t : TaskId) :
    (m.setCell cell).runtimeOf t = m.runtimeOf t := by
  cases t with
  | zero => rfl
  | succ place =>
    simp only [runtimeOf, task?, setCell, List.getElem?_modify]
    cases m.tasks[place]? with
    | none => rfl
    | some spawned => by_cases he : cell.id - 1 = place <;> simp [he]

theorem runtimeOf_dropQueues (m : Machine σ) (tasks : List TaskId) (t : TaskId) :
    (m.dropQueues tasks).runtimeOf t = m.runtimeOf t := by
  induction tasks generalizing m with
  | nil => rfl
  | cons task rest ih =>
    unfold dropQueues
    split
    · rw [ih, runtimeOf_setCell]
    · rfl
    · exact ih m

theorem runtimeOf_enroll (m : Machine σ) (th : Thread σ) (runtime : RuntimeId) (sticky : Bool)
    (name : Option String) (child : Body σ) (t : TaskId) : (m.enroll th runtime sticky name child).runtimeOf t =
      if t = m.tasks.length + 1 then some runtime else m.runtimeOf t := by
  cases t with
  | zero => rfl
  | succ place =>
    simp only [runtimeOf, task?, enroll]
    rcases Nat.lt_trichotomy place m.tasks.length with hlt | rfl | hgt
    · rw [List.getElem?_append_left hlt, if_neg fun he => Nat.ne_of_lt hlt (Nat.succ.inj he)]
    · rw [List.getElem?_concat_length, if_pos rfl]
      rfl
    · rw [if_neg fun he => Nat.ne_of_gt hgt (Nat.succ.inj he), List.getElem?_eq_none (Nat.le_of_lt hgt),
        List.getElem?_eq_none (by simpa using Nat.succ_le_of_lt hgt)]

/-- Tasks stay those of their runtime. -/
theorem Move.runtimeOf (hm : m.Move id th rest th') (hr : m.runtimeOf t = some r) : rest.runtimeOf t = some r := by
  have hset : ∀ cell, (m.setCell cell).runtimeOf t = some r := fun cell => (m.runtimeOf_setCell cell t).trans hr
  cases hm with
  | spawned =>
    rw [runtimeOf_enroll, if_neg, hr]
    rintro rfl
    obtain ⟨spawned, hs, _⟩ := Option.map_eq_some_iff.1 hr
    exact Nat.lt_irrefl _ (List.getElem?_eq_some_iff.1 hs).1
  | began | published | resumed | settled | nested | took => exact hset _
  | @closed _ found _ storage => exact (runtimeOf_dropQueues (m.closeStorage storage) _ t).trans hr
  | crashed ha =>
    cases ha with
    | unresumed | unopened => exact hset _
    | _ => exact hr
  | _ => exact hr

/-! ## Threads and queues mind their runtime -/

/-- A storage of a runtime. -/
def Stores (m : Machine σ) (r : RuntimeId) (storage : StorageId) : Prop :=
  ∃ rt, m.runtimes[r]? = some rt ∧ storage ∈ rt.storages

theorem stores_of_storageOf {c : Context} (h : m.storageOf c = some storage) : m.Stores c.runtime storage := by
  obtain ⟨rt, hrt, hs⟩ := Option.bind_eq_some_iff.1 h
  exact ⟨rt, hrt, List.mem_of_getElem? hs⟩

theorem Retains.stores (hk : m.Retains m') (h : m.Stores r storage) : m'.Stores r storage := by
  obtain ⟨rt, hrt, hs⟩ := h
  obtain ⟨rt', hrt', hr⟩ := hk.runtimes r rt hrt
  exact ⟨rt', hrt', hr.storages ▸ hs⟩

theorem Retains.storageOf {c : Context} (hk : m.Retains m') (h : m.storageOf c = some storage) :
    m'.storageOf c = some storage := by
  obtain ⟨rt, hrt, hs⟩ := Option.bind_eq_some_iff.1 h
  obtain ⟨rt', hrt', hr⟩ := hk.runtimes _ rt hrt
  exact Option.bind_eq_some_iff.2 ⟨rt', hrt', hr.storages ▸ hs⟩

/-- The thread looks for tasks of a runtime, as a worker of its pool or to shut it down. -/
def LooksIn (th : Thread σ) (r : RuntimeId) : Prop :=
  (∃ ticker force leaving frames c, th.frames = .loop ticker force leaving :: frames ∧ th.context = some c ∧
    c.runtime = r) ∨ ∃ stage next frames, th.frames = .drain r stage next :: frames

/-- The thread joins a task of runtime `r` that it runs with a storage of another one. -/
def JoinsAbroad (m : Machine σ) (th : Thread σ) (r : RuntimeId) (t : TaskId) (storage : StorageId) : Prop :=
  ∃ kind next frames c, th.frames = .joiner kind t next :: frames ∧ th.context = some c ∧ c.runtime ≠ r ∧
    m.storageOf c = some storage

/-- What a thread has found is of the runtime that it looks in, and what it begins it begins with a storage of
the task's own runtime, unless it joins the task from another one. -/
structure Minds (m : Machine σ) (th : Thread σ) : Prop where
  held : ∀ t, th.control = .hold t → ∃ r, m.runtimeOf t = some r ∧ LooksIn th r
  begun : ∀ t storage body, th.control = .begin t storage body →
    ∃ r, m.runtimeOf t = some r ∧ (m.Stores r storage ∨ m.JoinsAbroad th r t storage)

structure Unmixed (m : Machine σ) : Prop where
  queues : ∀ (r : RuntimeId) (rt : Runtime), m.runtimes[r]? = some rt →
    ∀ t ∈ queued rt.queues, m.runtimeOf t = some r
  threads : ∀ th ∈ m.threads, m.Minds th

theorem Minds.of_idle (hhold : ∀ t, th.control ≠ .hold t)
    (hbegin : ∀ t storage body, th.control ≠ .begin t storage body) : m.Minds th :=
  ⟨fun t h => absurd h (hhold t), fun t storage body h => absurd h (hbegin t storage body)⟩

/-- A step of another thread changes nothing of what a thread minds. -/
theorem Minds.kept {x : Thread σ} (h : m.Minds x) (hk : m.Retains rest)
    (hr : ∀ t r, m.runtimeOf t = some r → rest.runtimeOf t = some r) : rest.Minds x where
  held t hx := by
    obtain ⟨r, ht, hlooks⟩ := h.held t hx
    exact ⟨r, hr t r ht, hlooks⟩
  begun t storage body hx := by
    obtain ⟨r, ht, hs | ⟨kind, next, frames, c, hf, hc, hne, hs⟩⟩ := h.begun t storage body hx
    · exact ⟨r, hr t r ht, .inl (hk.stores hs)⟩
    · exact ⟨r, hr t r ht, .inr ⟨kind, next, frames, c, hf, hc, hne, hk.storageOf hs⟩⟩

/-- A thread that begins a task it has found begins it with a storage of the runtime it looks in. -/
theorem stores_of_stepHold (h : m.stepHold id th t = some m') (hr : LooksIn th r) :
    ∃ storage past, m.Stores r storage ∧ m.runHeld id th t storage past = some m' := by
  unfold stepHold at h
  rcases hr with ⟨ticker, force, leaving, frames, c, hf, hc, rfl⟩ | ⟨stage, next, frames, hf⟩
  · simp only [hf, hc] at h
    obtain ⟨storage, hs, h⟩ := Option.bind_eq_some_iff.1 h
    exact ⟨storage, .tick, stores_of_storageOf hs, h⟩
  · simp only [hf] at h
    obtain ⟨rt, hrt, h⟩ := Option.bind_eq_some_iff.1 h
    obtain ⟨storage, hs, h⟩ := Option.bind_eq_some_iff.1 h
    exact ⟨storage, .search, ⟨rt, hrt, List.mem_of_getElem? hs⟩, h⟩

theorem Unmixed.queues_move (h : m.Unmixed) (hm : m.Move id th rest th') (hcrash : rest.crash = none)
    (hth : m.threads[id]? = some th) {rt : Runtime} (hrt : rest.runtimes[r]? = some rt)
    (ht : t ∈ queued rt.queues) : rest.runtimeOf t = some r := by
  have hold : ∀ {r rt}, m.runtimes[r]? = some rt → t ∈ queued rt.queues → rest.runtimeOf t = some r :=
    fun hrt ht => hm.runtimeOf (h.queues _ _ hrt t ht)
  have hupdate : ∀ {runtime : RuntimeId} {f : Runtime → Runtime}, rest.runtimes = m.runtimes.modify runtime f →
      (∀ old, m.runtimes[runtime]? = some old → t ∈ queued (f old).queues → rest.runtimeOf t = some runtime) →
      rest.runtimeOf t = some r := by
    intro runtime f he hf
    rw [he, List.getElem?_modify] at hrt
    obtain ⟨old, hin, hfold⟩ := Option.map_eq_some_iff.1 hrt
    split at hfold <;> subst hfold
    · rename_i he
      subst he
      exact hf old hin ht
    · exact hold hin ht
  cases hm with
  | @spawned target options child next runtime found sticky hctl htarget hfound hsticky =>
    refine hupdate rfl fun old hold' hin => ?_
    rw [runtimeOf_enroll]
    split
    · rfl
    · rename_i hne
      have hin : t ∈ queued old.queues := by
        simp only [Thread.enqueue] at hin
        split at hin
        · split at hin
          · exact (Queues.mem_of_add hin).resolve_left hne
          · exact (Queues.mem_of_inject hin).resolve_left hne
        · exact (Queues.mem_of_inject hin).resolve_left hne
      exact h.queues _ _ hold' t hin
  | found _ _ hfound hchoose =>
    refine hupdate rfl fun old hold' hin => ?_
    cases hfound.symm.trans hold'
    exact hold hold' ((Queues.choose_subset hchoose).2 t hin)
  | woke | parked | stopped | rang => exact hupdate rfl fun old hold' hin => hold hold' hin
  | @closed runtime found _ storage =>
    obtain ⟨left, crash, he⟩ := dropQueues_eq (m.closeStorage storage) (queued found.queues)
    refine hupdate (by rw [he]; rfl) fun old _ hin => ?_
    rw [Queues.queued_empty] at hin
    cases hin
  | @launched settings space next config =>
    obtain ⟨_, new, hadded, _, _, hempty, _⟩ :=
      m.launch_manned id th config space next (List.getElem?_eq_some_iff.1 hth).1
    have hrt : (m.runtimes ++ [new])[r]? = some rt := hadded ▸ hrt
    rcases Nat.lt_or_ge r m.runtimes.length with hlt | hge
    · exact hold (List.getElem?_append_left hlt ▸ hrt) ht
    · rw [List.getElem?_append_right hge] at hrt
      rw [List.mem_singleton.1 (List.mem_of_getElem? hrt), hempty, Queues.queued_empty] at ht
      cases ht
  | crashed => cases hcrash
  | _ => exact hold hrt ht

theorem stepHold_of_step {choice : Choice} (hs : m.step id choice = some m') (hth : m.threads[id]? = some th)
    (hctl : th.control = .hold t) : m.stepHold id th t = some m' := by
  unfold Machine.step at hs
  split at hs
  · cases hs
  · rw [hth] at hs
    have hthread : m.stepThread id th choice = some m' := hs
    simpa only [stepThread, hctl] using hthread

theorem Unmixed.minds_move (h : m.Unmixed) {choice : Choice} (hs : m.step id choice = some (rest.setThread id th'))
    (hm : m.Move id th rest th') (hcrash : rest.crash = none) (hth : m.threads[id]? = some th) :
    rest.Minds th' := by
  have hself := hm.self hth
  cases hm with
  | @found runtime w force frames rt choice task queues hctl hseeks hrt hchoose =>
    refine ⟨fun t ht => ?_, fun _ _ _ hb => (by cases hb)⟩
    cases ht
    refine ⟨runtime, h.queues _ _ hrt _ (Queues.choose_subset hchoose).1, ?_⟩
    cases hseeks with
    | loop hf hc => exact .inl ⟨_, _, _, _, _, rfl, hc, rfl⟩
    | drain hf => exact .inr ⟨_, _, _, hf⟩
  | @nested kind t next cell storage body hctl hc _ hstorage _ =>
    refine ⟨fun _ hh => (by cases hh), fun _ _ _ hb => ?_⟩
    cases hb
    obtain ⟨r, hr⟩ := exists_runtimeOf hc
    obtain ⟨c, hcontext, hstorage⟩ := Option.bind_eq_some_iff.1 hstorage
    refine ⟨r, (m.runtimeOf_setCell _ t).trans hr, ?_⟩
    by_cases he : c.runtime = r
    · exact .inl (he ▸ stores_of_storageOf hstorage)
    · exact .inr ⟨kind, next, th.frames, c, rfl, hcontext, he, hstorage⟩
  | @took t frame frames storage cell body hctl hframes _ _ hc hbody =>
    obtain ⟨r, hr, hlooks⟩ := (h.threads th (List.mem_of_getElem? hth)).held t hctl
    refine ⟨fun _ hh => (by cases hh), fun _ _ _ hb => ?_⟩
    cases hb
    refine ⟨r, (m.runtimeOf_setCell _ t).trans hr, .inl ?_⟩
    obtain ⟨home, past, hstores, hrun⟩ := stores_of_stepHold (stepHold_of_step hs hth hctl) hlooks
    have htake : cell.take = some (body, { cell with body := none }) := by rw [Cell.take, hbody]; rfl
    have hbegun :
        some ((m.setCell { cell with body := none }).setThread id { th with control := .begin t home body }) =
          some ((m.setCell { cell with body := none }).setThread id { th with control := .begin t storage body }) := by
      simpa [runHeld, hc, htake] using hrun
    have hlt : id < (m.setCell { cell with body := none }).threads.length := (List.getElem?_eq_some_iff.1 hth).1
    have hsame := congrArg (fun m => m.threads[id]?) (Option.some.inj hbegun)
    simp only [setThread, List.getElem?_set_self hlt, Option.some.injEq, Thread.mk.injEq,
      Control.begin.injEq] at hsame
    exact hsame.1.2.1 ▸ hstores
  | @idle _ _ leaving => exact .of_idle (by cases leaving <;> simp) (by cases leaving <;> simp)
  | @settled _ _ _ frame _ _ _ _ _ _ hpast | @passed _ frame _ _ _ _ _ hpast =>
    exact .of_idle (fun _ he => by cases he; cases frame <;> cases hpast)
      (fun _ _ _ he => by cases he; cases frame <;> cases hpast)
  | crashed => cases hcrash
  | _ => exact .of_idle (fun _ he => by cases he) fun _ _ _ he => by cases he

theorem Unmixed.step (h : m.Unmixed) {choice : Choice} (hs : m.step id choice = some m')
    (hcrash : m'.crash = none) : m'.Unmixed := by
  obtain ⟨th, rest, th', hth, _, hm, rfl⟩ := exists_move hs
  have hcrash : rest.crash = none := hcrash
  have hk := hm.retains hcrash hth
  have hset : ∀ {x}, rest.Minds x → (rest.setThread id th').Minds x := fun hx => ⟨hx.held, hx.begun⟩
  refine ⟨fun r rt hrt t ht => ?_, fun x hx => ?_⟩
  · have hqueued : rest.runtimeOf t = some r := h.queues_move hm hcrash hth hrt ht
    exact hqueued
  · obtain ⟨other, hx⟩ := List.mem_iff_getElem?.1 hx
    rcases hm.thread_cases hth hx with ⟨rfl, rfl⟩ | ⟨_, hx⟩ | ⟨_, _, ha⟩
    · exact hset (h.minds_move hs hm hcrash hth)
    · exact hset ((h.threads x (List.mem_of_getElem? hx)).kept hk fun t r => hm.runtimeOf)
    · rcases ha with ⟨_, _, _, rfl⟩ | ⟨_, _, _, _, _, _, rfl⟩ <;>
        exact .of_idle (fun _ he => by cases he) fun _ _ _ he => by cases he

theorem unmixed_start (parallelism : Nat) (spaces : List Recorder) (shared : σ) (body : Body σ) :
    (start parallelism spaces shared body).Unmixed where
  queues r rt hrt := by cases hrt
  threads th hth := by
    rw [List.mem_singleton.1 hth]
    exact .of_idle (fun _ he => by cases he) fun _ _ _ he => by cases he

/-- In a run, a body is begun with a storage of the runtime that its task was spawned on, unless it is begun by a
thread that works for another runtime and joins the task. -/
theorem leaves_by_join {parallelism : Nat} {spaces : List Recorder} {shared : σ} {body : Body σ}
    {schedule : List (ThreadId × Choice)} {turns : Turns σ}
    (hrun : trail advance (start parallelism spaces shared body) schedule = some (turns, m)) :
    ∀ turn ∈ turns, ∀ th t storage child, turn.before.threads[turn.act.1]? = some th →
      th.control = .begin t storage child → ∃ r, turn.before.runtimeOf t = some r ∧
        (turn.before.Stores r storage ∨ turn.before.JoinsAbroad th r t storage) := by
  have hnext : ∀ (turns : Turns σ) (m : Machine σ) act after,
      (∀ turn ∈ turns, turn.before.Unmixed) ∧ (m.crash = none → m.Unmixed) → advance m act = some after →
      (∀ turn ∈ turns ++ [⟨m, act, after⟩], turn.before.Unmixed) ∧ (after.crash = none → after.Unmixed) := by
    rintro turns m act after ⟨hturns, hm⟩ hs
    obtain ⟨_, _, _, _, hnone, _⟩ := exists_move hs
    refine ⟨fun turn hturn => ?_, (hm hnone).step hs⟩
    rcases List.mem_append.1 hturn with hturn | hturn
    · exact hturns turn hturn
    · rw [List.mem_singleton.1 hturn]
      exact hm hnone
  have hall := trail_induction hnext ⟨fun _ hturn => (by cases hturn), fun _ => unmixed_start ..⟩ hrun
  intro turn hturn th t storage child hth hctl
  exact ((hall.1 turn hturn).threads th (List.mem_of_getElem? hth)).begun t storage child hctl

/-- Allocates a block. -/
def allocating : Body Unit := .call (.memory (.alloc 8 8)) fun _ => .finish .none

/-- Builds a runtime for one thread only, and goes on with it. -/
def alone (next : RuntimeId → Body Unit) : Body Unit :=
  .build (Settings.new .localOnly) none fun
  | .ok runtime => next runtime
  | .error _ => .finish .none

/-- A task of runtime `0` is joined by the root of runtime `1`, on another thread, before anyone takes it: its body
is registered with the storage of runtime `1`, and allocates in the space of that. -/
theorem runs_abroad :
    let joining : Body Unit := alone fun runtime =>
      .blockOn runtime (.wait .join 1 fun _ => .finish .none) fun _ => .finish .none
    let main : Body Unit := alone fun runtime =>
      .spawn (some runtime) ⟨false, none⟩ allocating fun _ => .onThread joining fun _ => .finish .none
    let schedule : List (ThreadId × Choice) :=
      (List.replicate 4 0 ++ List.replicate 5 1).map fun id => (id, ⟨false, 0, .nothing⟩)
    ∃ turns m, trail advance (start 1 [] () main) schedule = some (turns, m) ∧ m.runtimeOf 1 = some 0 ∧
      m.runtimes.map (fun rt => (rt.storages, rt.space)) = [([0], 0), ([1], 1)] ∧
      m.ledger.roster.storages.map (fun s => s.counters.registered) = [0, 2] ∧
      m.ledger.spaces.map (fun a => a.space.segments.length) = [0, 1] := by
  intro joining main schedule
  have hshown : (trail advance (start 1 [] () main) schedule).map (fun run => (run.2.runtimeOf 1,
      run.2.runtimes.map fun rt => (rt.storages, rt.space),
      run.2.ledger.roster.storages.map fun s => s.counters.registered,
      run.2.ledger.spaces.map fun a => a.space.segments.length)) =
        some (some 0, [([0], 0), ([1], 1)], [0, 2], [0, 1]) := by
    decide
  obtain ⟨⟨turns, m⟩, hrun, hshown⟩ := Option.map_eq_some_iff.1 hshown
  obtain ⟨hruntime, hplaces, hregistered, hsegments⟩ : _ ∧ _ ∧ _ ∧ _ := by simpa only [Prod.mk.injEq] using hshown
  exact ⟨turns, m, hrun, hruntime, hplaces, hregistered, hsegments⟩

end Machine

end TaskSpace

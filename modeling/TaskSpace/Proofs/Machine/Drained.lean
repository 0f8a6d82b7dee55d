import TaskSpace.Proofs.Machine.Orderly

/-!
# A shutdown runs what was queued

The thread that shuts the runtime down runs what it finds until the pool has ended, and then again until
nothing is queued. When it comes to close its storage, every task that was spawned is over, and as many
bodies were registered and deregistered as began.
-/

namespace TaskSpace

variable {σ : Type}

namespace Machine

variable {m : Machine σ} {k : Nat} {es : TaskId → List Event} {id other : ThreadId} {th x : Thread σ}
  {rt : Runtime} {t : TaskId} {turns : Turns σ} {runtime : RuntimeId} {body : Body σ}

/-! ## The end of a shutdown -/

/-- The thread that closes the runtime has nothing below it, and no other thread has a task. -/
theorem Orderly.stages_eq (h : m.Hosts k es) (ho : m.Orderly k rt es) (hth : m.threads[id]? = some th)
    (hctl : th.control = .stop runtime .close body) (hx : m.threads[other]? = some x) (t : TaskId) :
    x.stages t = [] := by
  cases hc : x.control with
  | ended result => simp [Thread.stages, hc, Control.stages, hosted, show x.frames = [] from h.controlFits hx hc]
  | _ =>
    obtain ⟨_, rfl⟩ := ho.alone h hth hctl hx (by simp [Thread.result?, hc])
    simp [Thread.stages, hctl, Control.stages, hosted, (h.controlFits hth hctl).1]

/-- When the runtime is about to be closed, every task is over, and its body ran. -/
theorem Orderly.finished (h : m.Hosts k es) (ho : m.Orderly k rt es) (hth : m.threads[id]? = some th)
    (hctl : th.control = .stop runtime .close body) {cell : Cell (Body σ)} (hc : m.cell? t = some cell) :
    cell.state.isTerminal ∧ ∃ result, cell.outcome = some (outcomeOf t result) := by
  have hterminal : cell.state.isTerminal := by
    by_contra hlive
    obtain ⟨other, x, hx, hstages⟩ := h.exists_owner hc (ho.all_taken h hth hctl hc) hlive
    exact hstages (ho.stages_eq h hth hctl hx t)
  obtain ⟨hand, hl, _⟩ := h.accounted.life t
  exact ⟨hterminal, (show Life t (some cell) _ hand from hc ▸ hl).returned_of_kept hterminal (ho.kept t)⟩

/-- No worker but the one that closes the runtime works any more, and no body is left. -/
theorem Orderly.workers_idle (h : m.Hosts k es) (ho : m.Orderly k rt es) (hth : m.threads[id]? = some th)
    (hctl : th.control = .stop runtime .close body) (hx : m.threads[other]? = some x) (hlt : other < k + 1) :
    x.bodies = [] ∧ (other ≠ id → x.context = none) := by
  obtain ⟨rfl, hframes, _⟩ := h.of_stop hth hctl
  rcases Nat.eq_zero_or_pos other with rfl | h1
  · cases hth.symm.trans hx
    exact ⟨Thread.bodies_eq hframes, fun hne => absurd rfl hne⟩
  · obtain ⟨y, hy, hr⟩ := ho.retired 0 th hth (.inl ⟨_, _, hctl⟩) other h1 hlt
    cases hx.symm.trans hy
    have hnone := ho.context_of_ended h h1 hx hr
    exact ⟨(h.fits hx).idle hnone, fun _ => hnone⟩

/-- What closing the runtime leaves of a machine. -/
theorem Orderly.close_step (h : m.Hosts k es) (ho : m.Orderly k rt es) (hone : m.runtimes = [rt])
    (hth : m.threads[id]? = some th) (hctl : th.control = .stop runtime .close body) (choice : Choice) :
    m.step id choice = some (({ m.closeStorage 0 with
      runtimes := [{ rt with queues := .empty (k + 1) }] }).setThread id
        { th with control := .run body, context := none, active := false }) := by
  obtain ⟨space, hist, hsound⟩ := h.sound
  have hrt := h.staff hone
  obtain ⟨_, _, rfl, _⟩ := h.controlFits hth hctl
  obtain ⟨hstorages, _, houter⟩ := hsound.runtimes rt (by simp [hone])
  have hzero : rt.storages[WorkerId.root]? = some 0 := by
    rw [hstorages]
    exact List.getElem?_range (Nat.succ_pos k)
  simp [step, h.crash, hth, stepThread, hctl, stop, hzero, ho.emptied id th 0 body hth hctl, dropQueues,
    closeStorage, updateRuntime, hone, houter, hrt.workers]

theorem begun_of_over (hover : ∀ t cell, m.cell? t = some cell → cell.state ≠ .created) :
    m.begun = m.tasks.length := by
  have hall : ∀ task ∈ m.tasks, task.cell.state ≠ .created := by
    intro task hin
    obtain ⟨place, hplace⟩ := List.mem_iff_getElem?.1 hin
    refine hover (place + 1) task.cell ?_
    simp [cell?, task?, hplace]
  unfold begun
  generalize m.tasks = tasks at hall
  induction tasks with
  | nil => rfl
  | cons task rest ih =>
    rw [List.map_cons, Word.total_cons, if_neg (hall task List.mem_cons_self),
      ih fun other hin => hall other (List.mem_cons_of_mem _ hin), List.length_cons, Nat.add_comm]

/-- What a shutdown leaves: every task ran to its end, nothing is queued, and as many bodies were
registered and deregistered as tasks were spawned and block-on calls made. Another shutdown has no effect. -/
structure ShutDown (turns : Turns σ) (m : Machine σ) : Prop where
  tasks : ∀ t cell, m.cell? t = some cell →
    cell.state.isTerminal ∧ ∃ result, cell.outcome = some (outcomeOf t result)
  uncancelled : ∀ t cell e, m.cell? t = some cell → cell.outcome = some (.error e) → e.isCancelled = false
  queues : ∀ rt ∈ m.runtimes, queued rt.queues = []
  storages : ∀ s ∈ m.ledger.roster.storages, s.closed ∧ s.len = 0
  registered : m.ledger.roster.registered = m.tasks.length + blockOns turns
  deregistered : m.ledger.roster.deregistered = m.tasks.length + blockOns turns
  again : ∀ (id : ThreadId) (th : Thread σ) body choice, m.threads[id]? = some th →
    (m.setThread id (th.continueWith (.shutdown 0 body))).step id choice =
      some (m.setThread id (th.continueWith body))

/-- A thread that asks for a shutdown of a runtime that is stopping goes on at once. -/
theorem step_shutdown (hth : m.threads[id]? = some th) (hcrash : m.crash = none) (hone : m.runtimes = [rt])
    (hstopping : rt.stopping) (choice : Choice) :
    (m.setThread id (th.continueWith (.shutdown 0 body))).step id choice =
      some (m.setThread id (th.continueWith body)) := by
  have hlt := (List.getElem?_eq_some_iff.1 hth).1
  simp [step, setThread, hcrash, hlt, stepThread, Thread.continueWith, runBody, hone, hstopping]

theorem Orderly.shutDown (h : m.Hosts k es) (ho : m.Orderly k rt es) (hc : Counted turns m)
    (hth : m.threads[id]? = some th)
    (hctl : th.control = .stop runtime .close body) :
    ShutDown turns (({ m.closeStorage 0 with
      runtimes := [{ rt with queues := .empty (k + 1) }] }).setThread id
        { th with control := .run body, context := none, active := false }) := by
  obtain ⟨space, hist, hsound⟩ := h.sound
  obtain ⟨rfl, _⟩ := h.of_stop hth hctl
  have hover : ∀ t cell, m.cell? t = some cell →
      cell.state.isTerminal ∧ ∃ result, cell.outcome = some (outcomeOf t result) :=
    fun t cell hcell => ho.finished h hth hctl hcell
  have hbegun : m.begun = m.tasks.length := begun_of_over fun t cell hcell he => by
    have hterminal := (hover t cell hcell).1
    rw [he] at hterminal
    cases hterminal
  -- the storage of a worker is that of a thread without bodies
  have hserved : ∀ (place : StorageId) s, m.ledger.roster.storages[place]? = some s →
      s.counters.registered = s.counters.deregistered ∧ s.len = 0 ∧ (place ≠ 0 → s.closed) := by
    intro place s hs
    have hlt : place < k + 1 := hsound.storages ▸ (List.getElem?_eq_some_iff.1 hs).1
    obtain ⟨x, hx⟩ : ∃ x, m.threads[place]? = some x :=
      ⟨_, List.getElem?_eq_getElem (Nat.lt_of_lt_of_le hlt hsound.present)⟩
    obtain ⟨hbodies, hnone⟩ := ho.workers_idle h hth hctl hx hlt
    refine ⟨?_, ?_, fun hne => hc.closed place s x hs hx (hnone hne)⟩
    · rw [hc.bodies place s x hs hx, hbodies]
      rfl
    · have hstack := (hsound.serves place s x hs hx).stack
      rw [Thread.stack, hbodies] at hstack
      exact List.length_eq_zero_iff.2 (List.map_eq_nil_iff.1 hstack)
  have hkept : ∀ (count : Counters → Nat),
      ((m.ledger.roster.storages.modify 0 Storage.close).map fun s => count s.counters) =
        m.ledger.roster.storages.map fun s => count s.counters := by
    intro count
    cases m.ledger.roster.storages <;> rfl
  have hregistered : m.ledger.roster.registered = m.tasks.length + blockOns turns := by
    rw [hc.begun, hbegun]
  have hderegistered : m.ledger.roster.deregistered = m.ledger.roster.registered := by
    refine congrArg Word.total (List.map_congr_left fun s hin => ?_)
    obtain ⟨place, hs⟩ := List.mem_iff_getElem?.1 hin
    exact (hserved place s hs).1.symm
  refine ⟨hover, fun t cell e hcell he => ?_, fun found hin => ?_, fun s hin => ?_,
    (congrArg Word.total (hkept Counters.registered)).trans hregistered,
    (congrArg Word.total (hkept Counters.deregistered)).trans (hderegistered.trans hregistered),
    fun other x next choice hx => ?_⟩
  · obtain ⟨_, result, hfound⟩ := hover t cell hcell
    cases result with
    | ok v => cases hfound.symm.trans he
    | error payload =>
      cases hfound.symm.trans he
      rfl
  · cases List.mem_singleton.1 hin
    exact Queues.queued_eq_nil.2 ⟨rfl, fun w => Queues.lane_empty _⟩
  · obtain ⟨place, hs⟩ := List.mem_iff_getElem?.1 hin
    have hs : (m.ledger.roster.storages.modify 0 Storage.close)[place]? = some s := hs
    by_cases hplace : place = 0
    · subst hplace
      rw [List.getElem?_modify_eq] at hs
      obtain ⟨old, hold, rfl⟩ := Option.map_eq_some_iff.1 hs
      exact ⟨rfl, (hserved 0 old hold).2.1⟩
    · have hs := (Roster.storage_updateStorage_ne hplace _).symm.trans hs
      exact ⟨(hserved place s hs).2.2 hplace, (hserved place s hs).2.1⟩
  · exact step_shutdown hx h.crash rfl (ho.stopping 0 th .close hth (.inl ⟨_, _, hctl⟩)) choice

/-! ## Runs -/

variable {parallelism : Nat} {spaces : List Recorder} {shared : σ} {settings : Settings} {given : Option SpaceId}
  {answer : Except BuildError RuntimeId → Body σ} {config : Config} {schedule : List (ThreadId × Choice)}

/-- Whatever the tasks of a run do and however it is scheduled, the last step of a shutdown is possible,
and after it everything that was spawned has run. -/
theorem shutdown_runs_all (h : Launches parallelism spaces settings given config)
    (hanswer : (answer (.ok 0)).Allowed .outside)
    (hrun : trail advance (start parallelism spaces shared (.build settings given answer)) schedule =
      some (turns, m))
    (hth : m.threads[id]? = some th) {runtime : RuntimeId} {body : Body σ}
    (hctl : th.control = .stop runtime .close body) (choice : Choice) :
    ∃ m', m.step id choice = some m' ∧ (∃ th', m'.threads[id]? = some th' ∧ th'.control = .run body) ∧
      ShutDown turns m' := by
  have hinv := hosts_run
    (P := fun turns es m => ∃ rt, m.runtimes = [rt] ∧ m.Orderly config.poolSize rt es ∧ Counted turns m) h hanswer
    (fun before choice m _ _ hl hbuild => by
      obtain ⟨rt, hone, hqueues, _⟩ := hl.runtime
      refine ⟨rt, hone, orderly_launched hl hqueues, counted_launched hl fun th hth => ?_⟩
      rw [hbuild] at hth
      cases Option.some.inj hth
      rfl)
    (fun turns es m id choice th rest th' hm ⟨rt, hone, ho, hc⟩ hth hmove hm' => by
      obtain ⟨rt', hone', _⟩ := hm'.runtime
      refine ⟨rt', hone', ho.move hm hth hmove hm' hone hone', hc.move hm hth hmove hm' ?_ choice⟩
      intro runtime next found hctl hfound
      cases List.singleton_inj.1 (hone.symm.trans hfound)
      exact ho.emptied id th runtime next hth hctl) hrun
  rcases hinv with ⟨rfl, rfl⟩ | ⟨es, hm, rt, hone, ho, hc⟩
  · cases id with
    | zero =>
      cases Option.some.inj hth
      cases hctl
    | succ id => cases hth
  · exact ⟨_, ho.close_step hm hone hth hctl choice,
      ⟨_, List.getElem?_set_self (List.getElem?_eq_some_iff.1 hth).1, rfl⟩, ho.shutDown hm hc hth hctl⟩

/-- The root spawns a task and does not wait for it. -/
def leaving : Body Unit :=
  .spawn none ⟨false, none⟩ (.finish .none) fun _ => .finish .none

def isClosing {σ : Type} : Control σ → Bool
  | .stop _ .close _ => true
  | _ => false

theorem exists_stop_of_isClosing {σ : Type} {control : Control σ} (h : isClosing control = true) :
    ∃ runtime next, control = .stop runtime .close next := by
  unfold isClosing at h
  split at h
  · exact ⟨_, _, rfl⟩
  · cases h

/-- The task is still queued when the shutdown begins, and runs during it. -/
theorem shutdown_runs_all_late :
    let answer : Except BuildError RuntimeId → Body Unit := fun _ =>
      .blockOn 0 leaving fun _ => .shutdown 0 (.finish .none)
    let schedule : List (ThreadId × Choice) := List.replicate 18 (0, ⟨false, 0, .nothing⟩)
    ∃ turns m th runtime body m',
      trail advance (start 1 [] () (.build (Settings.new .localOnly) none answer)) schedule = some (turns, m) ∧
      m.threads[0]? = some th ∧ th.control = .stop runtime .close body ∧
      m.step 0 ⟨false, 0, .nothing⟩ = some m' ∧ m.tasks.length = 1 ∧ ShutDown turns m' := by
  intro answer schedule
  have hlaunches : Launches 1 [] (Settings.new .localOnly) none
      { flavor := .localOnly, workerThreads := 1, naming := .numbered, stackSize := none, interval := 31
        retries := 3, space := Space.new 1 } :=
    ⟨rfl, rfl, by simp, by simp, by simp [Settings.new]⟩
  have hanswer : (answer (.ok 0)).Allowed .outside :=
    ⟨by decide, rfl, ⟨trivial, fun _ => trivial⟩, fun _ => ⟨rfl, rfl, trivial⟩⟩
  have hshown : (trail advance (start 1 [] () (.build (Settings.new .localOnly) none answer)) schedule).map
      (fun run => (run.2.threads.map fun th => isClosing th.control, run.2.tasks.length)) =
        some ([true], 1) := by
    decide
  obtain ⟨⟨turns, m⟩, hrun, hshown⟩ := Option.map_eq_some_iff.1 hshown
  obtain ⟨hstops, hlen⟩ := Prod.mk.injEq .. ▸ hshown
  obtain ⟨th, hth, hstops⟩ : ∃ th, m.threads[0]? = some th ∧ isClosing th.control = true := by
    have hzero := congrArg (·[0]?) hstops
    simpa using hzero
  obtain ⟨runtime, body, hctl⟩ := exists_stop_of_isClosing hstops
  obtain ⟨m', hstep, _, hdown⟩ := shutdown_runs_all hlaunches hanswer hrun hth hctl ⟨false, 0, .nothing⟩
  exact ⟨turns, m, th, runtime, body, m', hrun, hth, hctl, hstep, hlen, hdown⟩

end Machine

end TaskSpace

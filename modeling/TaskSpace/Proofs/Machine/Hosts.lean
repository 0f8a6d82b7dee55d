import TaskSpace.Proofs.Machine.Launch
import TaskSpace.Proofs.Machine.Once
import TaskSpace.Proofs.Scheduler.Parking
import TaskSpace.Proofs.Scheduler.Queues

/-!
# A machine with one runtime, step by step

`Machine.Hosts` puts together what is known of a machine once its runtime is launched: it is sound, its
tasks are accounted for, it has not crashed, and the runtime has its pool, its lanes and its slots. What
a run does beyond that is shown by `hosts_run`, one move at a time.
-/

namespace TaskSpace

variable {σ : Type}

/-- A runtime whose pool has `k` threads: its thread is worker `0`, and the pool has the others. -/
structure Runtime.Staffed (k : Nat) (rt : Runtime) : Prop where
  pool : rt.pool = (List.range k).map (1 + ·)
  lanes : rt.queues.lanes.length = k + 1
  workers : rt.config.numWorkers = k + 1
  lot : rt.lot.Sound (k + 1)

namespace Machine

structure Hosts (k : Nat) (es : TaskId → List Event) (m : Machine σ) : Prop where
  sound : ∃ space hist, m.Sound (k + 1) space hist
  accounted : Scene.Accounted ⟨m, []⟩ es
  crash : m.crash = none
  runtime : ∃ rt, m.runtimes = [rt] ∧ rt.Staffed k
  idle : ∀ (id : ThreadId) (th : Thread σ), m.threads[id]? = some th → th.context = none → th.frames = []

variable {m m' rest : Machine σ} {k : Nat} {es : TaskId → List Event} {id : ThreadId} {th th' : Thread σ}
  {rt : Runtime} {runtime : RuntimeId} {w : WorkerId} {t : TaskId}

/-! ## What fits together -/

theorem Hosts.fits (h : m.Hosts k es) (hth : m.threads[id]? = some th) : th.Fits (k + 1) id := by
  obtain ⟨space, hist, hs⟩ := h.sound
  exact hs.fits id th hth

theorem Hosts.controlFits (h : m.Hosts k es) (hth : m.threads[id]? = some th) {control : Control σ}
    (hctl : th.control = control) : control.Fits (th.base id) th.context.isSome id th.frames :=
  hctl ▸ (h.fits hth).control

theorem Hosts.paired (h : m.Hosts k es) (hth : m.threads[id]? = some th) : th.Paired :=
  h.accounted.paired id th hth

theorem Hosts.storageOf (h : m.Hosts k es) (hth : m.threads[id]? = some th) {storage : StorageId}
    (hs : th.context.bind m.storageOf = some storage) : storage = id ∧ th.context.isSome := by
  obtain ⟨space, hist, hsound⟩ := h.sound
  exact hsound.storageOf hth hs

theorem exists_storageOf {c : Context} (h : m.Hosts k es) (hth : m.threads[id]? = some th)
    (hc : th.context = some c) : ∃ storage, th.context.bind m.storageOf = some storage := by
  obtain ⟨space, hist, hsound⟩ := h.sound
  obtain ⟨rt, hrt, _⟩ := h.runtime
  obtain ⟨h0, hw, hlt⟩ := (h.fits hth).works c hc
  refine ⟨id, ?_⟩
  have hst := (hsound.runtimes rt (by simp [hrt])).1
  simp [hc, storageOf, h0, hw, hrt, hst, hlt]

theorem runtime_eq (hm : m.runtimes = [rt]) {found : Runtime} (h : m.runtimes[runtime]? = some found) :
    runtime = 0 ∧ found = rt := by
  rw [hm] at h
  cases runtime with
  | zero => exact ⟨rfl, (Option.some.inj h).symm⟩
  | succ place => cases h

theorem updateRuntime_eq (hm : m.runtimes = [rt]) (f : Runtime → Runtime) :
    (m.updateRuntime 0 f).runtimes = [f rt] := by
  simp [updateRuntime, hm]

theorem mem_pool (h : rt.Staffed k) : id ∈ rt.pool ↔ 1 ≤ id ∧ id < k + 1 := by
  rw [h.pool, List.mem_map]
  constructor
  · rintro ⟨i, hi, rfl⟩
    rw [Nat.add_comm 1 i]
    exact ⟨Nat.le_add_left 1 i, Nat.succ_lt_succ (List.mem_range.1 hi)⟩
  · rintro ⟨h1, hlt⟩
    obtain ⟨i, rfl⟩ := Nat.exists_eq_add_of_le h1
    rw [Nat.add_comm 1 i] at hlt
    exact ⟨i, List.mem_range.2 (Nat.lt_of_succ_lt_succ hlt), rfl⟩

/-- Threads that have frames work for the runtime. -/
theorem Hosts.works (h : m.Hosts k es) (hth : m.threads[id]? = some th) {frame : Frame σ}
    {frames : List (Frame σ)} (hf : th.frames = frame :: frames) :
    ∃ c, th.context = some c ∧ c.runtime = 0 ∧ c.worker = id ∧ id < k + 1 := by
  cases hc : th.context with
  | none =>
    rw [h.idle id th hth hc] at hf
    cases hf
  | some c => exact ⟨c, rfl, (h.fits hth).works c hc⟩

/-- Only the thread that built the runtime shuts it down, outside of its block-on calls. -/
theorem Hosts.of_stop (h : m.Hosts k es) (hth : m.threads[id]? = some th) {stage : StopStage} {body : Body σ}
    (hctl : th.control = .stop runtime stage body) : id = 0 ∧ th.frames = [] ∧ th.context.isSome := by
  obtain ⟨hframes, hbase, _⟩ := h.controlFits hth hctl
  obtain ⟨hid, hw⟩ := Thread.base_eq_outside.1 hbase
  exact ⟨hid, hframes, hw⟩

theorem Hosts.stacked (h : m.Hosts k es) (hth : m.threads[id]? = some th) :
    ∃ waiting, Stacked (th.base id) waiting th.frames := by
  have hfit := (h.fits hth).control
  cases hc : th.control <;> rw [hc] at hfit
  case exit =>
    obtain ⟨_, _, _, hf⟩ := hfit
    exact ⟨true, hf ▸ .loop⟩
  case stop => exact ⟨false, hfit.1 ▸ .nil⟩
  case ended => exact ⟨false, by rw [show th.frames = [] from hfit]; exact .nil⟩
  case run | «begin» | wait | wake | joinThread => exact ⟨_, hfit.1⟩
  all_goals exact ⟨_, hfit⟩

/-- Only the thread that built the runtime has bodies of block-on calls. -/
theorem Hosts.of_root (h : m.Hosts k es) (hth : m.threads[id]? = some th) {bracket : Bracket}
    (hin : (TaskId.root, bracket) ∈ th.bodies) : id = 0 := by
  obtain ⟨waiting, hst⟩ := h.stacked hth
  exact (Thread.base_eq_outside.1 (Thread.base_of_ne (hst.base_of_root hin))).1

theorem Hosts.staff (h : m.Hosts k es) (hone : m.runtimes = [rt]) : rt.Staffed k := by
  obtain ⟨found, hfound, hrt⟩ := h.runtime
  exact List.singleton_inj.1 (hfound.symm.trans hone) ▸ hrt

/-- A shutdown runs tasks at the bottom of the thread that built the runtime. -/
theorem draining_of_stacked {stage : StopStage} {next : Body σ}
    {frames : List (Frame σ)} (hst : Stacked (th.base id) true th.frames)
    (hf : th.frames = .drain runtime stage next :: frames) : runtime = 0 ∧ id = 0 ∧ frames = [] := by
  rw [hf] at hst
  cases hst with
  | drain hbase => exact ⟨rfl, (Thread.base_eq_outside.1 hbase).1, rfl⟩

/-- A thread that looks for tasks does so as its own worker. -/
theorem Hosts.seeks (h : m.Hosts k es) (hth : m.threads[id]? = some th) (hctl : th.control = .search)
    {force : Bool} {frames : List (Frame σ)} (hs : th.Seeks runtime w force frames) :
    runtime = 0 ∧ w = id ∧ id < k + 1 := by
  cases hs with
  | loop _ hc => exact (h.fits hth).works _ hc
  | drain hf =>
    obtain ⟨rfl, rfl, _⟩ := draining_of_stacked (h.controlFits hth hctl) hf
    exact ⟨rfl, rfl, Nat.succ_pos k⟩

/-- A task that was taken and is not over is with some thread. -/
theorem Hosts.exists_owner (h : m.Hosts k es) {cell : Cell (Body σ)} (hc : m.cell? t = some cell)
    (hbody : cell.body = none) (hlive : ¬cell.state.isTerminal) :
    ∃ (id : ThreadId) (th : Thread σ), m.threads[id]? = some th ∧ th.stages t ≠ [] := by
  obtain ⟨hand, hl, hhand⟩ := h.accounted.life t
  obtain ⟨owner, stage, rfl⟩ := (hc ▸ hl : Life t (some cell) (es t) hand).held hbody hlive
  have hown := hhand h.crash owner
  simp only [Hand.of, if_true] at hown
  cases owner with
  | none => cases hown
  | some id =>
    cases hth : m.threads[id]? with
    | none => simp [Scene.stages, hth] at hown
    | some th =>
      refine ⟨id, th, hth, ?_⟩
      simp only [Scene.stages, hth, Option.elim_some] at hown
      rw [hown]
      exact List.cons_ne_nil stage []

/-- A spawn queues the task on the lane of the thread's own worker, if it is one. -/
theorem Hosts.enqueue (h : m.Hosts k es) (hth : m.threads[id]? = some th) (hrt : rt.Staffed k) (sticky : Bool)
    (task : TaskId) :
    rt.queues.Grows (th.context.map fun _ => id) task (th.enqueue 0 sticky task rt.queues) := by
  unfold Thread.enqueue
  cases hc : th.context with
  | none => exact Queues.inject_grows _ _
  | some c =>
    obtain ⟨h0, hw, hlt⟩ := (h.fits hth).works c hc
    simp only [h0, hw, if_true, Option.map_some]
    exact Queues.add_grows (hrt.lanes ▸ hlt) sticky task

/-- The target of a spawn is the one runtime. -/
theorem enroll_eq (hm : m.runtimes = [rt]) {sticky : Bool} {name : Option String}
    {child : Body σ} {found : Runtime} (hrt : m.runtimes[runtime]? = some found) :
    runtime = 0 ∧ found = rt ∧ (m.enroll th runtime sticky name child).runtimes =
      [{ rt with queues := th.enqueue 0 sticky (m.tasks.length + 1) rt.queues }] := by
  obtain ⟨rfl, rfl⟩ := runtime_eq hm hrt
  exact ⟨rfl, rfl, updateRuntime_eq hm _⟩

/-- Dropping queue entries changes nothing but tasks, unless it stops the machine. -/
theorem dropQueues_eq (m : Machine σ) (tasks : List TaskId) :
    ∃ left crash, m.dropQueues tasks = { m with tasks := left, crash } := by
  induction tasks generalizing m with
  | nil => exact ⟨m.tasks, m.crash, rfl⟩
  | cons task rest ih =>
    unfold dropQueues
    split
    · exact ih _
    · exact ⟨m.tasks, _, rfl⟩
    · exact ih m

/-! ## Moves -/

/-- No promise is broken, and no thread lacks its slot. -/
theorem Hosts.not_aborts (h : m.Hosts k es) (hth : m.threads[id]? = some th) {before : Machine σ} {crash : Crash}
    (ha : m.Aborts id th before crash) (hreg : ∀ error, crash ≠ .registry error)
    (htask : ∀ violation, crash ≠ .task violation) : False := by
  obtain ⟨rt, hm, hrt⟩ := h.runtime
  cases ha with
  | @noSlot found hfound hwhy =>
    rw [hm, List.mem_singleton] at hfound
    subst hfound
    rcases hwhy with ⟨_, _, _, hlot⟩ | ⟨_, hw, hlot⟩ | ⟨_, _, _, _, hlot⟩
    · obtain ⟨l, hl, _⟩ := hrt.lot.unparkOne
      cases hl.symm.trans hlot
    · obtain ⟨l, hl, _⟩ := hrt.lot.park ((h.fits hth).lt hw)
      cases hl.symm.trans hlot
    · obtain ⟨l, hl, _⟩ := hrt.lot.unparkAll
      cases hl.symm.trans hlot
  | unopened | rootUnopened | unclosed => exact hreg _ rfl
  | _ => exact htask _ rfl

theorem Hosts.staffed (h : m.Hosts k es) (hth : m.threads[id]? = some th) (hm : m.Move id th rest th')
    (hcrash : rest.crash = none) : ∃ rt, rest.runtimes = [rt] ∧ rt.Staffed k := by
  obtain ⟨rt, hone, hrt⟩ := h.runtime
  have hlot : ∀ {runtime found} {lot : Lot}, m.runtimes[runtime]? = some found →
      (found = rt → lot.Sound (k + 1)) → ∃ rt, (m.updateRuntime runtime fun rt => { rt with lot }).runtimes =
        [rt] ∧ rt.Staffed k := by
    intro runtime found lot hfound hlot
    obtain ⟨rfl, rfl⟩ := runtime_eq hone hfound
    exact ⟨_, updateRuntime_eq hone _, { hrt with lot := hlot rfl }⟩
  cases hm with
  | spawned hctl htarget hfound =>
    obtain ⟨rfl, rfl, he⟩ := enroll_eq hone hfound
    exact ⟨_, he, { hrt with lanes := (h.enqueue hth hrt _ _).lanes.trans hrt.lanes }⟩
  | launched hctl => exact (h.controlFits hth hctl).2.elim
  | woke hctl hfound hl =>
    refine hlot hfound fun he => ?_
    obtain ⟨lot, hlot, hsound⟩ := hrt.lot.unparkOne
    subst he
    cases hlot.symm.trans hl
    exact hsound
  | found hctl hseeks hfound hchoose =>
    obtain ⟨rfl, rfl, hlt⟩ := h.seeks hth hctl hseeks
    obtain ⟨_, rfl⟩ := runtime_eq hone hfound
    have hyields := Queues.choose_yields (hrt.lanes ▸ hlt) hchoose
    exact ⟨_, updateRuntime_eq hone _, { hrt with lanes := hyields.lanes.trans hrt.lanes }⟩
  | parked hctl hc hfound hl =>
    refine hlot hfound fun he => ?_
    obtain ⟨lot, hlot, hsound⟩ := hrt.lot.park ((h.fits hth).works _ hc).2.2
    subst he
    cases hlot.symm.trans hl
    exact hsound
  | stopped hctl hfound =>
    obtain ⟨rfl, rfl⟩ := runtime_eq hone hfound
    exact ⟨_, updateRuntime_eq hone _, { hrt with }⟩
  | rang hctl hfound hl =>
    refine hlot hfound fun he => ?_
    obtain ⟨lot, hlot, hsound⟩ := hrt.lot.unparkAll
    subst he
    cases hlot.symm.trans hl
    exact hsound
  | closed hctl hfound =>
    obtain ⟨rfl, rfl⟩ := runtime_eq hone hfound
    have hkept : ∀ storage tasks, ((m.closeStorage storage).dropQueues tasks).runtimes = m.runtimes := by
      intro storage tasks
      obtain ⟨left, crash, he⟩ := dropQueues_eq (m.closeStorage storage) tasks
      rw [he]
      rfl
    refine ⟨_, updateRuntime_eq ((hkept _ _).trans hone) _, { hrt with lanes := ?_ }⟩
    simp [Queues.empty, hrt.workers]
  | crashed ha => cases hcrash
  | _ => exact ⟨rt, hone, hrt⟩

theorem Hosts.idle_move (h : m.Hosts k es) (hth : m.threads[id]? = some th) (hm : m.Move id th rest th')
    (hnone : th'.context = none) : th'.frames = [] := by
  have hsame : th.context = none → th.frames = [] := h.idle id th hth
  have hsome : ∀ {frame : Frame σ} {frames : List (Frame σ)}, th.frames = frame :: frames →
      th.context ≠ none := fun hf hn => by
    rw [hsame hn] at hf
    cases hf
  have hkept : ∀ {t}, (th.setTask t).context = none → th.context = none := fun hn =>
    Option.map_eq_none_iff.1 hn
  cases hm with
  | launched hctl => exact (h.controlFits hth hctl).2.elim
  | rooted hctl =>
    obtain ⟨_, hrole, _⟩ := h.controlFits hth hctl
    rw [hsame (hkept hnone)] at hrole
    obtain ⟨_, hw⟩ := Thread.base_eq_outside.1 (Thread.base_of_ne hrole)
    rw [hkept hnone] at hw
    cases hw
  | began hctl =>
    obtain ⟨_, _, _, hw, _⟩ := h.controlFits hth hctl
    rw [hkept hnone] at hw
    cases hw
  | left _ hf | leftRoot _ hf => exact absurd (hkept hnone) (hsome hf)
  | resumed _ _ _ hf | idle _ hf | drained _ hf | ticked _ hf => exact absurd hnone (hsome hf)
  | nested _ _ _ hs =>
    rw [show th.context = none from hnone] at hs
    cases hs
  | found _ hseeks =>
    cases hseeks with
    | loop hf => exact absurd hnone (hsome hf)
    | drain hf => exact absurd hnone (hsome hf)
  | exited => rfl
  | rang hctl | joinedPool hctl =>
    obtain ⟨_, _, hw⟩ := h.of_stop hth hctl
    rw [show th.context = none from hnone] at hw
    cases hw
  | closed hctl => exact (h.controlFits hth hctl).1
  | _ => exact hsame hnone

/-- A step of a machine with one runtime is a move, and the machine is as sound as before. -/
theorem Hosts.step (h : m.Hosts k es) {choice : Choice} (hs : m.step id choice = some m') :
    ∃ th rest th', m.threads[id]? = some th ∧ m.Move id th rest th' ∧ m' = rest.setThread id th' ∧
      m'.Hosts k (Scene.next es id th m rest) := by
  obtain ⟨space, hist, hsound⟩ := h.sound
  obtain ⟨th, rest, th', hth, hcrash, hm, rfl⟩ := exists_move hs
  have hsound' := hsound.step hth hs
  have hacc : Scene.Accounted ⟨rest.setThread id th', []⟩ (Scene.next es id th m rest) :=
    h.accounted.move hcrash hth hm
  have hnone : rest.crash = none := by
    cases hm with
    | crashed ha =>
      exact (h.not_aborts hth ha (fun error he => hsound'.crash error (by rw [← he]; rfl))
        fun violation he => hacc.unbroken violation (by rw [← he]; rfl)).elim
    | @closed _ rt _ storage =>
      have hfresh : (m.closeStorage storage).Fresh := h.accounted.fresh
      exact (dropQueues_cases hfresh (queued rt.queues)).1.trans hcrash
    | _ => exact hcrash
  have hstaffed := h.staffed hth hm hnone
  refine ⟨th, rest, th', hth, hm, rfl, ⟨space, _, hsound'⟩, hacc, hnone, hstaffed, fun other x hx hc => ?_⟩
  rcases hm.thread_cases hth hx with ⟨rfl, rfl⟩ | ⟨_, hx⟩ | ⟨_, _, ha⟩
  · exact h.idle_move hth hm hc
  · exact h.idle other x hx hc
  · rcases ha with ⟨_, _, _, rfl⟩ | ⟨_, _, _, _, _, hctl, rfl⟩
    · rfl
    · cases hc

/-- The cells of a machine after a move: states move on, and a body that is gone stays so. -/
theorem Hosts.moved (h : m.Hosts k es) (hth : m.threads[id]? = some th)
    (h' : (rest.setThread id th').Hosts k (Scene.next es id th m rest)) {cell : Cell (Body σ)}
    (hc : m.cell? t = some cell) : ∃ cell', rest.cell? t = some cell' ∧
      (cell'.state = cell.state ∨ cell'.state.follows cell.state) ∧
      (cell.outcome.isSome → cell'.outcome = cell.outcome) ∧ (cell.body = none → cell'.body = none) := by
  obtain ⟨hand, hl, _⟩ := h.accounted.life t
  obtain ⟨hand', hl', _⟩ := h'.accounted.life t
  rw [show (m.cell? t) = _ from hc] at hl
  refine hl.follows hl' fun hsettled id' => ?_
  have hapart := Scene.events_apart ⟨⟨m, []⟩, .step id ⟨false, 0, .nothing⟩, ⟨rest, []⟩⟩ t
  simp only [Scene.events, hth, Option.elim_some] at hapart
  exact hapart hsettled id'

/-! ## Runs -/

/-- A step of a schedule, which says what thread takes it and what its search finds. -/
def advance (m : Machine σ) (turn : ThreadId × Choice) : Option (Machine σ) := m.step turn.1 turn.2

abbrev Turns (σ : Type) := List (Turn (Machine σ) (ThreadId × Choice))

variable {parallelism : Nat} {spaces : List Recorder} {shared : σ} {settings : Settings} {given : Option SpaceId}
  {next : Except BuildError RuntimeId → Body σ} {config : Config}

/-- A machine whose runtime was just launched. -/
structure Launched (k : Nat) (next : Except BuildError RuntimeId → Body σ) (m : Machine σ) : Prop where
  threads : m.threads = builder next :: workers k
  tasks : m.tasks = []
  runtime : ∃ rt, m.runtimes = [rt] ∧ rt.queues = .empty (k + 1) ∧ rt.stopping = false ∧ rt.lot.parked = []
  storages : ∃ space, m.ledger.roster.storages = (List.range (k + 1)).map (Storage.fresh · space)

theorem launched_launch (given : Option SpaceId) (config : Config) (body : Body σ) :
    let m := (start parallelism spaces shared body).launch 0 (.plain body) config given next
    Launched config.poolSize next m ∧ ∃ rt, m.runtimes = [rt] ∧ rt.Staffed config.poolSize := by
  have hstaffed : ∀ (space : SpaceId) (outer : Option Context), Runtime.Staffed config.poolSize
      { config, space, storages := List.range config.numWorkers, queues := .empty config.numWorkers
        lot := ⟨[], registerAll (.empty config.numWorkers) 0 (List.range config.numWorkers)
          ((List.range config.poolSize).map (1 + ·))⟩
        stopping := false, pool := (List.range config.poolSize).map (1 + ·), outer } := fun space outer =>
    { pool := rfl
      lanes := List.length_replicate
      workers := rfl
      lot := ⟨fun i hi => Slots.registerAll_has hi, fun i hi => by cases hi⟩ }
  cases given with
  | some space =>
    simp only [launch, start, addStorages_eq { spaces, roster := .empty } rfl]
    exact ⟨⟨rfl, rfl, ⟨_, rfl, rfl, rfl, rfl⟩, space, rfl⟩, _, rfl, hstaffed _ _⟩
  | none =>
    simp only [launch, start, Ledger.addSpace]
    rw [addStorages_eq _ rfl]
    exact ⟨⟨rfl, rfl, ⟨_, rfl, rfl, rfl, rfl⟩, _, rfl⟩, _, rfl, hstaffed _ _⟩

theorem Launched.thread (h : Launched k next m) (hth : m.threads[id]? = some th) :
    id = 0 ∧ th = builder next ∨ 1 ≤ id ∧ th = .pooled 0 id := by
  rw [h.threads] at hth
  cases id with
  | zero => exact .inl ⟨rfl, (Option.some.inj hth).symm⟩
  | succ place =>
    rw [List.getElem?_cons_succ, workers, List.getElem?_map] at hth
    obtain ⟨i, hi, rfl⟩ := Option.map_eq_some_iff.1 hth
    obtain ⟨_, rfl⟩ := List.getElem?_eq_some_iff.1 hi
    rw [List.getElem_range]
    exact .inr ⟨Nat.succ_pos place, rfl⟩

theorem Launched.cell (h : Launched k next m) (t : TaskId) : m.cell? t = none := by
  cases t with
  | zero => rfl
  | succ place => simp [cell?, task?, h.tasks]

theorem hosts_launch (h : Launches parallelism spaces settings given config)
    (hnext : (next (.ok 0)).Allowed .outside) (shared : σ) (body : Body σ) :
    ((start parallelism spaces shared body).launch 0 (.plain body) config given next).Hosts config.poolSize
      fun _ => [] := by
  obtain ⟨space, hsound⟩ := launch_sound h hnext shared body
  generalize hm : (start parallelism spaces shared body).launch 0 (.plain body) config given next = m at hsound ⊢
  have hcrash : m.crash = none := hm ▸ rfl
  obtain ⟨hl, rt, hrt, hstaffed⟩ := hm ▸ launched_launch given config body
  refine ⟨⟨space, .start, hsound⟩, ⟨fun t => ⟨none, ?_, fun _ who => ?_⟩, fun id th hth => ?_, fun _ he => ?_⟩,
    hcrash, ⟨rt, hrt, hstaffed⟩, fun id th hth hc => ?_⟩
  · rw [show (m.cell? t) = none from hl.cell t]
    exact .unborn
  · cases who with
    | none => rfl
    | some id =>
      cases hth : m.threads[id]? with
      | none => simp [Scene.stages, hth, Hand.of]
      | some th =>
        rcases hl.thread hth with ⟨_, rfl⟩ | ⟨_, rfl⟩
        · simp only [Scene.stages, hth]
          rfl
        · simp only [Scene.stages, hth]
          rfl
  · rcases hl.thread hth with ⟨_, rfl⟩ | ⟨_, rfl⟩
    · exact ⟨trivial, fun he => by cases he⟩
    · exact ⟨rfl, fun he => by cases he⟩
  · cases hcrash.symm.trans he
  · rcases hl.thread hth with ⟨_, rfl⟩ | ⟨_, rfl⟩
    · rfl
    · cases hc

/-- A run does nothing, or it launches the runtime first. -/
theorem launch_run (h : Launches parallelism spaces settings given config) {schedule : List (ThreadId × Choice)}
    {turns : Turns σ}
    (hrun : trail advance (start parallelism spaces shared (.build settings given next)) schedule =
      some (turns, m)) :
    (turns = [] ∧ m = start parallelism spaces shared (.build settings given next)) ∨
      ∃ choice launched rest later, launched = (start parallelism spaces shared (.build settings given next)).launch 0
          (.plain (.build settings given next)) config given next ∧
        advance (start parallelism spaces shared (.build settings given next)) (0, choice) = some launched ∧
        trail advance launched rest = some (later, m) ∧
        turns = ⟨start parallelism spaces shared (.build settings given next), (0, choice), launched⟩ :: later := by
  cases schedule with
  | nil =>
    cases hrun
    exact .inl ⟨rfl, rfl⟩
  | cons turn schedule =>
    obtain ⟨id, choice⟩ := turn
    obtain ⟨after, later, hstep, hrest, rfl⟩ := trail_cons hrun
    obtain ⟨rfl, he⟩ := step_launch h hstep
    exact .inr ⟨choice, after, schedule, later, he, hstep, hrest, rfl⟩

/-- What holds when the runtime is launched, and is kept by every move, holds after every run that launches
it. -/
theorem hosts_run {P : Turns σ → (TaskId → List Event) → Machine σ → Prop}
    (h : Launches parallelism spaces settings given config) (hnext : (next (.ok 0)).Allowed .outside)
    (launched : ∀ before choice m, m.shared = shared → m.Hosts config.poolSize (fun _ => []) →
      Launched config.poolSize next m → before = start parallelism spaces shared (.build settings given next) →
      P [⟨before, (0, choice), m⟩] (fun _ => []) m)
    (move : ∀ turns es m id choice th rest th', m.Hosts config.poolSize es → P turns es m →
      m.threads[id]? = some th → m.Move id th rest th' →
      (rest.setThread id th').Hosts config.poolSize (Scene.next es id th m rest) →
      P (turns ++ [⟨m, (id, choice), rest.setThread id th'⟩]) (Scene.next es id th m rest)
        (rest.setThread id th'))
    {schedule : List (ThreadId × Choice)} {turns : Turns σ}
    (hrun : trail advance (start parallelism spaces shared (.build settings given next)) schedule =
      some (turns, m)) :
    (turns = [] ∧ m = start parallelism spaces shared (.build settings given next)) ∨
      ∃ es, m.Hosts config.poolSize es ∧ P turns es m := by
  rcases launch_run h hrun with hnil | ⟨choice, _, rest, later, rfl, _, hrest, rfl⟩
  · exact .inl hnil
  · have hhosts := hosts_launch h hnext shared (.build settings given next)
    refine .inr (trail_induction_from (P := fun turns m => ∃ es, m.Hosts config.poolSize es ∧ P turns es m)
      (fun turns m turn m' hp hs => ?_) ⟨_, hhosts, launched _ _ _ rfl hhosts (launched_launch ..).1 rfl⟩ hrest)
    obtain ⟨es, hm, hp⟩ := hp
    obtain ⟨th, moved, th', hth, hmove, rfl, hm'⟩ := hm.step hs
    exact ⟨_, hm', move turns es m turn.1 turn.2 th moved th' hm hp hth hmove hm'⟩

end Machine

end TaskSpace

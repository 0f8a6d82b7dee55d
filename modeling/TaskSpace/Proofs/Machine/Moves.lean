import TaskSpace.Proofs.Machine.Attended

/-!
# The steps of a thread, one by one

`Machine.Move` has a case for each thing that a thread may do in a step, with what is known of the
machine before and the machine that it leaves. Whatever is to hold of every step is shown by cases on
it, and never by opening the step function again.
-/

namespace TaskSpace

variable {σ : Type}

/-- What a wait gives, once the task is terminal. -/
def Cell.give {β : Type} (c : Cell β) : WaitKind → Except Violation Outcome
  | .get => c.get
  | .join => c.join

/-- The cell of a task that becomes terminal. -/
def Cell.settled {β : Type} (c : Cell β) (completed : Bool) : Cell β :=
  { c with state := if completed then .completed else .failed }

/-- What a thread that looks for tasks does next when there is nothing more to do for its find. -/
def Frame.past? : Frame σ → Option (Control σ)
  | .loop _ _ _ => some .tick
  | .drain _ _ _ => some .search
  | .task _ _ _ | .root _ _ _ | .joiner _ _ _ => none

namespace Thread

/-- Where the entry of a task goes that the thread spawns on a runtime. -/
def enqueue (th : Thread σ) (runtime : RuntimeId) (sticky : Bool) (task : TaskId) (q : Queues) : Queues :=
  match th.context with
  | some c => if c.runtime = runtime then q.add c.worker sticky task else q.inject task
  | none => q.inject task

/-- The thread is to wait for a task, or waits for it. -/
def Awaits (th : Thread σ) (kind : WaitKind) (t : TaskId) (next : Outcome → Body σ) : Prop :=
  th.control = .run (.wait kind t next) ∨ th.control = .wait kind t next

/-- The thread looks for a task of a runtime as worker `w`; `frames` are those it has if it finds one. -/
inductive Seeks (th : Thread σ) : RuntimeId → WorkerId → (force : Bool) → (frames : List (Frame σ)) → Prop
  | loop {ticker force leaving frames c} : th.frames = .loop ticker force leaving :: frames →
    th.context = some c → Seeks th c.runtime c.worker force (.loop ticker false leaving :: frames)
  | drain {runtime stage next frames} : th.frames = .drain runtime stage next :: frames →
    Seeks th runtime WorkerId.root false th.frames

end Thread

namespace Machine

/-- The storage that the finds of a thread run with. -/
def Finds (m : Machine σ) (th : Thread σ) (storage : StorageId) : Prop :=
  th.context.bind m.storageOf = some storage ∨
    ∃ runtime stage next frames rt, th.frames = .drain runtime stage next :: frames ∧
      m.runtimes[runtime]? = some rt ∧ rt.storages[WorkerId.root]? = some storage

/-- A task is spawned: its entry is queued, and its cell is there. -/
def enroll (m : Machine σ) (th : Thread σ) (runtime : RuntimeId) (sticky : Bool) (name : Option String)
    (child : Body σ) : Machine σ :=
  { m.updateRuntime runtime fun rt =>
      { rt with queues := th.enqueue runtime sticky (m.tasks.length + 1) rt.queues } with
    tasks := m.tasks ++ [⟨.spawned (m.tasks.length + 1) sticky name child, runtime⟩] }

/-- The requests of a body that are answered at once, with the shared state and the ledger after them,
and what is left of the body. -/
inductive Answered (m : Machine σ) (th : Thread σ) : Body σ → σ → Ledger → Body σ → Prop
  | call (r next) :
    Answered m th (.call r next) m.shared (m.answer th r).2 (next (m.answer th r).1)
  | share (change next) : Answered m th (.share change next) (change m.shared) m.ledger (next m.shared)
  | await {ready} (next) : ready m.shared →
    Answered m th (.await ready next) m.shared m.ledger (next m.shared)
  | stranded {options child} (next) : th.context = none →
    Answered m th (.spawn none options child next) m.shared m.ledger (next (.error noRuntime))
  | refused {settings space} (next error) :
    Answered m th (.build settings space next) m.shared m.ledger (next (.error error))
  | stopping {runtime rt} (next) : m.runtimes[runtime]? = some rt → rt.stopping →
    Answered m th (.shutdown runtime next) m.shared m.ledger next

/-- The broken promises that stop a machine, and what was done before. -/
inductive Aborts (m : Machine σ) (id : ThreadId) (th : Thread σ) : Machine σ → Crash → Prop
  | ranTwice {t storage body cell} : th.control = .begin t storage body → m.cell? t = some cell →
    cell.state ≠ .created → Aborts m id th m (.task (.ranTwice cell.id))
  | completedTwice {t completed cell} : th.control = .settle t completed → m.cell? t = some cell →
    cell.state.isTerminal → Aborts m id th m (.task (.completedTwice cell.id))
  | undelivered {kind t next cell violation} : th.Awaits kind t next → m.cell? t = some cell →
    cell.state.isTerminal → cell.give kind = .error violation → Aborts m id th m (.task violation)
  | unresumed {t completed cell kind u next frames waited violation} : th.control = .settle t completed →
    m.cell? t = some cell → ¬cell.state.isTerminal → th.frames = .joiner kind u next :: frames →
    (m.setCell (cell.settled completed)).cell? u = some waited → waited.give kind = .error violation →
    Aborts m id th (m.setCell (cell.settled completed)) (.task violation)
  | unopened {t storage body cell error ledger} : th.control = .begin t storage body →
    m.cell? t = some cell → cell.state = .created →
    m.ledger.openBracket storage id (some t) th.holder = (.error error, ledger) →
    Aborts m id th { m.setCell { cell with state := .running } with ledger } (.registry error)
  | rootUnopened {runtime root next error ledger} : th.control = .run (.blockOn runtime root next) →
    Aborts m id th { m with ledger } (.registry error)
  | unclosed {result error ledger} : th.control = .leave result →
    Aborts m id th { m with ledger } (.registry error)
  | noSlot {rt : Runtime} : rt ∈ m.runtimes →
    (∃ runtime next, th.control = .wake runtime next ∧ rt.lot.unparkOne = none) ∨
      (th.control = .park ∧ th.context.isSome ∧ rt.lot.park id = none) ∨
      (∃ runtime stage next, th.control = .stop runtime stage next ∧ rt.lot.unparkAll = none) →
    Aborts m id th m .noSlot

/-- What thread `id`, which is `th`, does in a step: the machine that it leaves but for the thread, and the
thread as it is then. -/
inductive Move (m : Machine σ) (id : ThreadId) (th : Thread σ) : Machine σ → Thread σ → Prop
  | answered {body shared ledger rest} : th.control = .run body → m.Answered th body shared ledger rest →
    Move m id th { m with shared, ledger } (th.continueWith rest)
  | ended {result} : th.control = .run (.ofResult result) → th.frames = [] →
    Move m id th m { th with control := .ended result }
  | returned {result} : th.control = .run (.ofResult result) → th.frames ≠ [] →
    Move m id th m { th with control := .leave result }
  | spawned {target options child next runtime rt sticky} :
    th.control = .run (.spawn target options child next) →
    (target <|> th.context.map Context.runtime) = some runtime → m.runtimes[runtime]? = some rt →
    sticky = (options.sticky || rt.config.defaultSticky) →
    Move m id th (m.enroll th runtime sticky options.name child)
      { th with control := .wake runtime (next (.ok (m.tasks.length + 1))) }
  | launched {settings space next config} : th.control = .run (.build settings space next) →
    th.active = false → settings.toConfig m.parallelism = .ok config →
    Move m id th { m.launch id th config space next with
        threads := m.threads ++ (List.range config.poolSize).map fun i => .pooled m.runtimes.length (i + 1) }
      { th with
        control := .run (next (.ok m.runtimes.length))
        context := some ⟨m.runtimes.length, WorkerId.root, none⟩, active := true }
  | rooted {runtime root next rt storage bracket ledger} : th.control = .run (.blockOn runtime root next) →
    m.runtimes[runtime]? = some rt → rt.storages[WorkerId.root]? = some storage →
    m.ledger.openBracket storage id (some TaskId.root) th.holder = (.ok bracket, ledger) →
    Move m id th { m with ledger } { th.setTask (some TaskId.root) with
      control := .run root, frames := .root bracket th.currentTask next :: th.frames
      holder := some bracket.holder }
  | began {t storage body cell bracket ledger} : th.control = .begin t storage body →
    m.cell? t = some cell → cell.state = .created →
    m.ledger.openBracket storage id (some t) th.holder = (.ok bracket, ledger) →
    Move m id th { m.setCell { cell with state := .running } with ledger } { th.setTask (some t) with
      control := .run body, frames := .task t bracket th.currentTask :: th.frames
      holder := some bracket.holder }
  | left {result t bracket outer frames ledger} : th.control = .leave result →
    th.frames = .task t bracket outer :: frames → m.ledger.closeBracket id bracket = (.ok (), ledger) →
    Move m id th { m with ledger } { th.setTask outer with
      control := .publish t (result.mapError (JoinError.panicked t)), frames, holder := bracket.parent }
  | leftRoot {result bracket outer next frames ledger} : th.control = .leave result →
    th.frames = .root bracket outer next :: frames → m.ledger.closeBracket id bracket = (.ok (), ledger) →
    Move m id th { m with ledger } { th.setTask outer with
      control := .run (next result), frames, holder := bracket.parent }
  | published {t outcome cell} : th.control = .publish t outcome → m.cell? t = some cell →
    Move m id th (m.setCell (cell.publish outcome)) { th with control := .settle t outcome.isOk }
  | resumed {t completed cell kind u next frames waited outcome} : th.control = .settle t completed →
    m.cell? t = some cell → ¬cell.state.isTerminal → th.frames = .joiner kind u next :: frames →
    (m.setCell (cell.settled completed)).cell? u = some waited → waited.give kind = .ok outcome →
    Move m id th (m.setCell (cell.settled completed)) { th with control := .run (next outcome), frames }
  | settled {t completed cell frame frames past} : th.control = .settle t completed →
    m.cell? t = some cell → ¬cell.state.isTerminal → th.frames = frame :: frames →
    frame.past? = some past →
    Move m id th (m.setCell (cell.settled completed)) { th with control := past }
  | delivered {kind t next cell outcome} : th.Awaits kind t next → m.cell? t = some cell →
    cell.state.isTerminal → cell.give kind = .ok outcome →
    Move m id th m (th.continueWith (next outcome))
  | blocked {kind t next cell} : th.control = .run (.wait kind t next) → m.cell? t = some cell →
    ¬cell.state.isTerminal →
    (cell.state ≠ .created ∨ th.context.bind m.storageOf = none ∨ cell.body = none) →
    Move m id th m { th with control := .wait kind t next }
  | nested {kind t next cell storage body} : th.control = .run (.wait kind t next) →
    m.cell? t = some cell → cell.state = .created → th.context.bind m.storageOf = some storage →
    cell.body = some body →
    Move m id th (m.setCell { cell with body := none }) { th with
      control := .begin t storage body, frames := .joiner kind t next :: th.frames }
  | woke {runtime rt next lot} : th.control = .wake runtime next → m.runtimes[runtime]? = some rt →
    rt.lot.unparkOne = some lot →
    Move m id th (m.updateRuntime runtime fun rt => { rt with lot }) (th.continueWith next)
  | found {runtime w force frames rt choice task queues} : th.control = .search →
    th.Seeks runtime w force frames → m.runtimes[runtime]? = some rt →
    choose rt.queues w force (m.contended rt) choice = some (some (task, queues)) →
    Move m id th (m.updateRuntime runtime fun rt => { rt with queues })
      { th with control := .hold task, frames }
  | idle {ticker force leaving frames c rt choice} : th.control = .search →
    th.frames = .loop ticker force leaving :: frames → th.context = some c →
    m.runtimes[c.runtime]? = some rt →
    choose rt.queues c.worker force (m.contended rt) choice = some none →
    Move m id th m { th with
      control := if leaving then .exit else .park, frames := .loop ticker false leaving :: frames }
  | drained {runtime stage next frames rt choice} : th.control = .search →
    th.frames = .drain runtime stage next :: frames → m.runtimes[runtime]? = some rt →
    choose rt.queues WorkerId.root false (m.contended rt) choice = some none →
    Move m id th m { th with control := .stop runtime stage next, frames }
  | took {t frame frames storage cell body} : th.control = .hold t → th.frames = frame :: frames →
    frame.past?.isSome → m.Finds th storage → m.cell? t = some cell → cell.body = some body →
    Move m id th (m.setCell { cell with body := none }) { th with control := .begin t storage body }
  | passed {t frame frames past cell} : th.control = .hold t → th.frames = frame :: frames →
    frame.past? = some past → m.cell? t = some cell → cell.body = none →
    Move m id th m { th with control := past }
  | parked {c rt lot} : th.control = .park → th.context = some c → m.runtimes[c.runtime]? = some rt →
    rt.lot.park id = some lot → rt.stopping = false → rt.queues.hasStealable c.worker = false →
    Move m id th (m.updateRuntime c.runtime fun rt => { rt with lot }) { th with control := .parked }
  | awake : th.control = .park → Move m id th m { th with control := .tick }
  | unparked {c rt} : th.control = .parked → th.context = some c → m.runtimes[c.runtime]? = some rt →
    rt.lot.signalled id → Move m id th m { th with control := .tick }
  | ticked {ticker force leaving frames c rt ticker' force' leaving'} : th.control = .tick →
    th.frames = .loop ticker force leaving :: frames → th.context = some c →
    m.runtimes[c.runtime]? = some rt → (leaving' = true → leaving ∨ rt.stopping) →
    Move m id th m { th with control := .search, frames := .loop ticker' force' leaving' :: frames }
  | exited {storage} : th.control = .exit → th.context.bind m.storageOf = some storage →
    Move m id th (m.closeStorage storage)
      { th with control := .ended (.ok .none), frames := [], context := none }
  | stopped {runtime rt next} : th.control = .run (.shutdown runtime next) →
    m.runtimes[runtime]? = some rt → rt.stopping = false →
    Move m id th (m.updateRuntime runtime fun rt => { rt with stopping := true })
      { th with control := .stop runtime .wakeAll next }
  | rang {runtime rt next lot} : th.control = .stop runtime .wakeAll next →
    m.runtimes[runtime]? = some rt → rt.lot.unparkAll = some lot →
    Move m id th (m.updateRuntime runtime fun rt => { rt with lot }) { th with
      control := .search, frames := .drain runtime .joinPool next :: th.frames }
  | joinedPool {runtime rt next} : th.control = .stop runtime .joinPool next →
    m.runtimes[runtime]? = some rt → m.contended rt = false →
    Move m id th m { th with control := .search, frames := .drain runtime .close next :: th.frames }
  | closed {runtime rt next storage} : th.control = .stop runtime .close next →
    m.runtimes[runtime]? = some rt → rt.storages[WorkerId.root]? = some storage →
    Move m id th (((m.closeStorage storage).dropQueues (queued rt.queues)).updateRuntime runtime
        fun rt => { rt with queues := .empty rt.config.numWorkers })
      { th with control := .run next, context := rt.outer, active := false }
  | forked {body next} : th.control = .run (.onThread body next) →
    Move m id th { m with threads := m.threads ++ [.plain body] }
      { th with control := .joinThread m.threads.length next }
  | joinedThread {thread next other result} : th.control = .joinThread thread next →
    m.threads[thread]? = some other → other.result? = some result →
    Move m id th m (th.continueWith (next result))
  | crashed {before crash} : m.Aborts id th before crash → Move m id th (before.fail crash) th

/-- A machine that a move leaves. -/
def Steps (m : Machine σ) (id : ThreadId) (th : Thread σ) (m' : Machine σ) : Prop :=
  ∃ rest th', m.Move id th rest th' ∧ m' = rest.setThread id th'

variable {m m' : Machine σ} {id : ThreadId} {th : Thread σ} {t : TaskId} {choice : Choice}
  {kind : WaitKind} {next : Outcome → Body σ}

theorem Move.steps {rest : Machine σ} {th' : Thread σ} (h : m.Move id th rest th') :
    m.Steps id th (rest.setThread id th') :=
  ⟨rest, th', h, rfl⟩

theorem Move.steps_of_append {rest : Machine σ} {th' : Thread σ} {added : List (Thread σ)}
    (hth : m.threads[id]? = some th) (h : m.Move id th { rest with threads := m.threads ++ added } th') :
    m.Steps id th { rest with threads := m.threads.set id th' ++ added } := by
  refine ⟨_, _, h, ?_⟩
  simp only [setThread, List.set_append_left id th' (List.getElem?_eq_some_iff.1 hth).1]

theorem steps_crashed {before : Machine σ} {crash : Crash} (hth : m.threads[id]? = some th)
    (h : m.Aborts id th before crash) : m.Steps id th (before.fail crash) := by
  have hthreads : before.threads = m.threads := by cases h <;> rfl
  refine ⟨_, _, .crashed h, ?_⟩
  obtain ⟨hlt, rfl⟩ := List.getElem?_eq_some_iff.1 hth
  simp only [setThread, fail, hthreads, List.set_getElem_self]

/-! ## Waiting for tasks -/

theorem deliver_eq (m : Machine σ) (id : ThreadId) (th : Thread σ) (kind : WaitKind) (cell : Cell (Body σ))
    (next : Outcome → Body σ) :
    m.deliver id th kind cell next = match cell.give kind with
      | .ok outcome => m.setThread id (th.continueWith (next outcome))
      | .error violation => m.fail (.task violation) := by
  cases kind <;> rfl

theorem move_deliver (hth : m.threads[id]? = some th) {cell : Cell (Body σ)} (ha : th.Awaits kind t next) (hc : m.cell? t = some cell)
    (ht : cell.state.isTerminal) : m.Steps id th (m.deliver id th kind cell next) := by
  rw [deliver_eq]
  split
  · rename_i hg
    exact Move.steps (.delivered ha hc ht hg)
  · rename_i hg
    exact steps_crashed hth (.undelivered ha hc ht hg)

theorem move_beginWait (hth : m.threads[id]? = some th) (hctl : th.control = .run (.wait kind t next))
    (hs : m.beginWait id th kind t next = some m') : m.Steps id th m' := by
  unfold beginWait at hs
  obtain ⟨cell, hc, hs⟩ := Option.bind_eq_some_iff.1 hs
  split at hs
  · rename_i ht
    cases hs
    exact move_deliver hth (.inl hctl) hc ht
  · rename_i ht
    split at hs
    · rename_i storage body cell' hstate hstorage htake
      obtain ⟨old, hbody, he⟩ := Option.map_eq_some_iff.1 htake
      cases he
      cases hs
      exact Move.steps (.nested hctl hc hstate hstorage hbody)
    · rename_i hnot
      cases hs
      refine Move.steps (.blocked hctl hc ht ?_)
      by_cases hstate : cell.state = .created
      · cases hstorage : th.context.bind m.storageOf with
        | none => exact .inr (.inl rfl)
        | some storage =>
          cases hbody : cell.body with
          | none => exact .inr (.inr rfl)
          | some body =>
            exact absurd (by simp [Cell.take, hbody]) (hnot storage body { cell with body := none } hstate
              hstorage)
      · exact .inl hstate

theorem move_settle (hth : m.threads[id]? = some th) {completed : Bool} {cell cell' : Cell (Body σ)} (hctl : th.control = .settle t completed)
    (hc : m.cell? t = some cell) (hset : cell.settle completed = .ok cell')
    (hs : (m.setCell cell').resume id th = some m') : m.Steps id th m' := by
  unfold Cell.settle at hset
  split at hset
  · cases hset
  · rename_i hnot
    cases hset
    unfold resume at hs
    split at hs
    · rename_i kind u next frames hframes
      obtain ⟨waited, hw, hs⟩ := Option.bind_eq_some_iff.1 hs
      cases hs
      rw [deliver_eq]
      split
      · rename_i hg
        exact Move.steps (.resumed hctl hc hnot hframes hw hg)
      · rename_i hg
        exact steps_crashed hth (.unresumed hctl hc hnot hframes hw hg)
    · rename_i hframes
      cases hs
      exact Move.steps (.settled hctl hc hnot hframes rfl)
    · rename_i hframes
      cases hs
      exact Move.steps (.settled hctl hc hnot hframes rfl)
    · cases hs

theorem move_runHeld {storage : StorageId} {frame : Frame σ} {frames : List (Frame σ)} {past : Control σ}
    (hctl : th.control = .hold t) (hframes : th.frames = frame :: frames) (hpast : frame.past? = some past)
    (hf : m.Finds th storage) (hs : m.runHeld id th t storage past = some m') : m.Steps id th m' := by
  unfold runHeld at hs
  obtain ⟨cell, hc, hs⟩ := Option.bind_eq_some_iff.1 hs
  split at hs
  · rename_i htake
    obtain ⟨old, hbody, he⟩ := Option.map_eq_some_iff.1 htake
    cases he
    cases hs
    exact Move.steps (.took hctl hframes (by rw [hpast]; rfl) hf hc hbody)
  · rename_i htake
    cases hs
    exact Move.steps (.passed hctl hframes hpast hc (Option.map_eq_none_iff.1 htake))

/-! ## Bodies -/

theorem move_blockOn (hth : m.threads[id]? = some th) {runtime : RuntimeId} {root : Body σ} {next : Except Payload Value → Body σ}
    (hctl : th.control = .run (.blockOn runtime root next))
    (hs : m.runBody id th (.blockOn runtime root next) = some m') : m.Steps id th m' := by
  obtain ⟨rt, hrt, hs⟩ := Option.bind_eq_some_iff.1 hs
  obtain ⟨storage, hstorage, hs⟩ := Option.bind_eq_some_iff.1 hs
  cases hs
  unfold openBracket
  split
  · exact steps_crashed hth (.rootUnopened hctl)
  · rename_i bracket ledger ho
    exact Move.steps (.rooted hctl hrt hstorage ho)

theorem move_build (hth : m.threads[id]? = some th) {settings : Settings} {space : Option SpaceId}
    {next : Except BuildError RuntimeId → Body σ} (hctl : th.control = .run (.build settings space next)) :
    m.Steps id th (m.build id th settings space next) := by
  have hrefuse : ∀ error, m.Steps id th (m.setThread id (th.continueWith (next (.error error)))) :=
    fun error => Move.steps (.answered hctl (.refused next error))
  unfold build
  dsimp only
  split
  · exact hrefuse .alreadyActive
  · rename_i hactive
    split
    · exact hrefuse _
    · rename_i config hconfig
      split
      · exact hrefuse _
      · exact Move.steps_of_append hth (.launched hctl (Bool.not_eq_true _ ▸ hactive) hconfig)

theorem move_runBody (hth : m.threads[id]? = some th) {body : Body σ} (hctl : th.control = .run body)
    (hs : m.runBody id th body = some m') : m.Steps id th m' := by
  have hresult : ∀ result, th.control = .run (.ofResult result) →
      (if th.frames.isEmpty then some (m.setThread id { th with control := .ended result })
        else some (m.setThread id { th with control := .leave result })) = some m' → m.Steps id th m' := by
    intro result hctl hs
    split at hs
    · rename_i he
      cases hs
      exact Move.steps (.ended hctl (List.isEmpty_iff.1 he))
    · rename_i he
      cases hs
      exact Move.steps (.returned hctl fun hn => he (List.isEmpty_iff.2 hn))
  cases body with
  | finish v => exact hresult (.ok v) hctl hs
  | panic payload => exact hresult (.error payload) hctl hs
  | call r next =>
    cases hs
    exact Move.steps (.answered hctl (.call r next))
  | share change next =>
    cases hs
    exact Move.steps (.answered hctl (.share change next))
  | await ready next =>
    simp only [runBody] at hs
    split at hs
    · rename_i hready
      cases hs
      exact Move.steps (.answered hctl (.await next hready))
    · cases hs
  | spawn target options child next =>
    simp only [runBody] at hs
    split at hs
    · rename_i runtime hruntime
      obtain ⟨rt, hrt, hs⟩ := Option.bind_eq_some_iff.1 hs
      cases hs
      exact Move.steps (.spawned hctl hruntime hrt rfl)
    · rename_i hnone
      cases hs
      cases target with
      | some runtime => cases hnone
      | none => exact Move.steps (.answered hctl (.stranded next (Option.map_eq_none_iff.1 hnone)))
  | wait kind t next => exact move_beginWait hth hctl hs
  | build settings space next =>
    cases hs
    exact move_build hth hctl
  | blockOn runtime root next => exact move_blockOn hth hctl hs
  | shutdown runtime next =>
    obtain ⟨rt, hrt, hs⟩ := Option.bind_eq_some_iff.1 hs
    split at hs
    · rename_i hstop
      cases hs
      exact Move.steps (.answered hctl (.stopping next hrt hstop))
    · rename_i hstop
      cases hs
      exact Move.steps (.stopped hctl hrt (Bool.not_eq_true _ ▸ hstop))
  | onThread body next =>
    cases hs
    exact Move.steps_of_append hth (.forked hctl)

/-! ## Looking for tasks -/

theorem move_stepSearch (hctl : th.control = .search) (hs : m.stepSearch id th choice = some m') :
    m.Steps id th m' := by
  unfold stepSearch at hs
  split at hs
  · rename_i ticker force leaving frames c hframes hcontext
    obtain ⟨rt, hrt, hs⟩ := Option.bind_eq_some_iff.1 hs
    obtain ⟨found, hchoose, hs⟩ := Option.bind_eq_some_iff.1 hs
    cases found with
    | none =>
      cases hs
      exact Move.steps (.idle hctl hframes hcontext hrt hchoose)
    | some found =>
      cases hs
      exact Move.steps (.found hctl (.loop hframes hcontext) hrt hchoose)
  · rename_i runtime stage next frames hframes
    obtain ⟨rt, hrt, hs⟩ := Option.bind_eq_some_iff.1 hs
    obtain ⟨found, hchoose, hs⟩ := Option.bind_eq_some_iff.1 hs
    cases found with
    | none =>
      cases hs
      exact Move.steps (.drained hctl hframes hrt hchoose)
    | some found =>
      cases hs
      exact Move.steps (.found hctl (.drain hframes) hrt hchoose)
  · cases hs

theorem move_stepHold (hctl : th.control = .hold t) (hs : m.stepHold id th t = some m') :
    m.Steps id th m' := by
  unfold stepHold at hs
  split at hs
  · rename_i hframes hcontext
    obtain ⟨storage, hstorage, hs⟩ := Option.bind_eq_some_iff.1 hs
    exact move_runHeld hctl hframes rfl (.inl (by rw [hcontext]; exact hstorage)) hs
  · rename_i hframes
    obtain ⟨rt, hrt, hs⟩ := Option.bind_eq_some_iff.1 hs
    obtain ⟨storage, hstorage, hs⟩ := Option.bind_eq_some_iff.1 hs
    exact move_runHeld hctl hframes rfl (.inr ⟨_, _, _, _, rt, hframes, hrt, hstorage⟩) hs
  · cases hs

theorem move_stepPark (hth : m.threads[id]? = some th) (hctl : th.control = .park) (hs : m.stepPark id th = some m') : m.Steps id th m' := by
  obtain ⟨c, hcontext, hs⟩ := Option.bind_eq_some_iff.1 hs
  obtain ⟨rt, hrt, hs⟩ := Option.bind_eq_some_iff.1 hs
  split at hs
  · cases hs
    exact Move.steps (.awake hctl)
  · rename_i hnot
    obtain ⟨hstop, hnone⟩ := Bool.or_eq_false_iff.1 (Bool.not_eq_true _ ▸ hnot)
    split at hs
    · rename_i hlot
      cases hs
      exact steps_crashed hth (.noSlot (List.mem_of_getElem? hrt) (.inr (.inl ⟨hctl, by rw [hcontext]; rfl, hlot⟩)))
    · rename_i lot hlot
      cases hs
      exact Move.steps (.parked hctl hcontext hrt hlot hstop hnone)

theorem stopping_of_next {ticker ticker' : Ticker} {interval : UInt32} {stopping : Bool}
    (he : ticker.next interval stopping = (.shutdown, ticker')) : stopping = true := by
  simp only [Ticker.next, Ticker.event, Prod.mk.injEq] at he
  split at he
  · assumption
  · obtain ⟨he, _⟩ := he
    split at he <;> split at he <;> cases he

theorem move_stepTick (hctl : th.control = .tick) (hs : m.stepTick id th = some m') : m.Steps id th m' := by
  unfold stepTick at hs
  split at hs
  · rename_i ticker force leaving frames c hframes hcontext
    obtain ⟨rt, hrt, hs⟩ := Option.bind_eq_some_iff.1 hs
    cases hnext : ticker.next (UInt32.ofNat rt.config.interval) rt.stopping with
    | mk event ticker' =>
      rw [hnext] at hs
      cases event with
      | none =>
        cases hs
        exact Move.steps (.ticked hctl hframes hcontext hrt .inl)
      | popInjector =>
        cases hs
        exact Move.steps (.ticked hctl hframes hcontext hrt .inl)
      | shutdown =>
        cases hs
        exact Move.steps (.ticked hctl hframes hcontext hrt fun _ => .inr (stopping_of_next hnext))
  · cases hs

/-! ## Shutting down -/

theorem move_stop (hth : m.threads[id]? = some th) {runtime : RuntimeId} {stage : StopStage} {next : Body σ}
    (hctl : th.control = .stop runtime stage next) (hs : m.stop id th runtime stage next = some m') :
    m.Steps id th m' := by
  obtain ⟨rt, hrt, hs⟩ := Option.bind_eq_some_iff.1 hs
  cases stage with
  | wakeAll =>
    cases hlot : rt.lot.unparkAll with
    | none =>
      simp only [hlot] at hs
      cases hs
      exact steps_crashed hth (.noSlot (List.mem_of_getElem? hrt) (.inr (.inr ⟨_, _, _, hctl, hlot⟩)))
    | some lot =>
      simp only [hlot] at hs
      cases hs
      exact Move.steps (.rang hctl hrt hlot)
  | joinPool =>
    dsimp only at hs
    split at hs
    · cases hs
    · rename_i hnot
      cases hs
      exact Move.steps (.joinedPool hctl hrt (Bool.not_eq_true _ ▸ hnot))
  | close =>
    obtain ⟨storage, hstorage, hs⟩ := Option.bind_eq_some_iff.1 hs
    cases hs
    exact Move.steps (.closed hctl hrt hstorage)

/-! ## Steps -/

theorem move_begin (hth : m.threads[id]? = some th) {storage : StorageId} {body : Body σ} (hctl : th.control = .begin t storage body)
    (hs : m.stepThread id th choice = some m') : m.Steps id th m' := by
  simp only [stepThread, hctl] at hs
  obtain ⟨cell, hc, hs⟩ := Option.bind_eq_some_iff.1 hs
  unfold Cell.start at hs
  by_cases hcreated : cell.state = .created
  · rw [if_pos hcreated] at hs
    cases hs
    unfold openBracket
    split
    · rename_i ho
      exact steps_crashed hth (.unopened hctl hc hcreated ho)
    · rename_i ho
      exact Move.steps (.began hctl hc hcreated ho)
  · rw [if_neg hcreated] at hs
    cases hs
    exact steps_crashed hth (.ranTwice hctl hc hcreated)

theorem move_leave (hth : m.threads[id]? = some th) {result : Except Payload Value} (hctl : th.control = .leave result)
    (hs : m.stepThread id th choice = some m') : m.Steps id th m' := by
  simp only [stepThread, hctl] at hs
  split at hs
  · rename_i hframes
    cases hs
    unfold closeBracket
    split
    · exact steps_crashed hth (.unclosed hctl)
    · rename_i hclose
      exact Move.steps (.left hctl hframes hclose)
  · rename_i hframes
    cases hs
    unfold closeBracket
    split
    · exact steps_crashed hth (.unclosed hctl)
    · rename_i hclose
      exact Move.steps (.leftRoot hctl hframes hclose)
  · cases hs

theorem move_stepThread (hth : m.threads[id]? = some th) (hs : m.stepThread id th choice = some m') : m.Steps id th m' := by
  cases hctl : th.control with
  | «begin» t storage body => exact move_begin hth hctl hs
  | leave result => exact move_leave hth hctl hs
  | run body =>
    simp only [stepThread, hctl] at hs
    exact move_runBody hth hctl hs
  | publish t outcome =>
    simp only [stepThread, hctl] at hs
    obtain ⟨cell, hc, hs⟩ := Option.bind_eq_some_iff.1 hs
    cases hs
    exact Move.steps (.published hctl hc)
  | settle t completed =>
    simp only [stepThread, hctl] at hs
    obtain ⟨cell, hc, hs⟩ := Option.bind_eq_some_iff.1 hs
    split at hs
    · rename_i violation hset
      cases hs
      unfold Cell.settle at hset
      split at hset
      · rename_i ht
        cases hset
        exact steps_crashed hth (.completedTwice hctl hc ht)
      · cases hset
    · rename_i hset
      exact move_settle hth hctl hc hset hs
  | wait kind t next =>
    simp only [stepThread, hctl] at hs
    obtain ⟨cell, hc, hs⟩ := Option.bind_eq_some_iff.1 hs
    split at hs
    · rename_i ht
      cases hs
      exact move_deliver hth (.inr hctl) hc ht
    · cases hs
  | wake runtime next =>
    simp only [stepThread, hctl] at hs
    obtain ⟨rt, hrt, hs⟩ := Option.bind_eq_some_iff.1 hs
    split at hs
    · rename_i hlot
      cases hs
      exact steps_crashed hth (.noSlot (List.mem_of_getElem? hrt) (.inl ⟨_, _, hctl, hlot⟩))
    · rename_i hlot
      cases hs
      exact Move.steps (.woke hctl hrt hlot)
  | search =>
    simp only [stepThread, hctl] at hs
    exact move_stepSearch hctl hs
  | hold t =>
    simp only [stepThread, hctl] at hs
    exact move_stepHold hctl hs
  | park =>
    simp only [stepThread, hctl] at hs
    exact move_stepPark hth hctl hs
  | parked =>
    simp only [stepThread, hctl] at hs
    obtain ⟨c, hcontext, hs⟩ := Option.bind_eq_some_iff.1 hs
    obtain ⟨rt, hrt, hs⟩ := Option.bind_eq_some_iff.1 hs
    split at hs
    · rename_i hsignalled
      cases hs
      exact Move.steps (.unparked hctl hcontext hrt hsignalled)
    · cases hs
  | tick =>
    simp only [stepThread, hctl] at hs
    exact move_stepTick hctl hs
  | exit =>
    simp only [stepThread, hctl] at hs
    obtain ⟨c, hcontext, hs⟩ := Option.bind_eq_some_iff.1 hs
    obtain ⟨storage, hstorage, hs⟩ := Option.bind_eq_some_iff.1 hs
    cases hs
    exact Move.steps (.exited hctl (by rw [hcontext]; exact hstorage))
  | stop runtime stage next =>
    simp only [stepThread, hctl] at hs
    exact move_stop hth hctl hs
  | joinThread thread next =>
    simp only [stepThread, hctl] at hs
    obtain ⟨other, hother, hs⟩ := Option.bind_eq_some_iff.1 hs
    obtain ⟨result, hresult, hs⟩ := Option.bind_eq_some_iff.1 hs
    cases hs
    exact Move.steps (.joinedThread hctl hother hresult)
  | ended result =>
    simp only [stepThread, hctl] at hs
    cases hs

/-- Every step of a machine is one of the moves, by a thread of a machine that has not crashed. -/
theorem exists_move (hs : m.step id choice = some m') :
    ∃ th rest th', m.threads[id]? = some th ∧ m.crash = none ∧ m.Move id th rest th' ∧
      m' = rest.setThread id th' := by
  unfold step at hs
  split at hs
  · cases hs
  · rename_i hcrash
    obtain ⟨th, hth, hs⟩ := Option.bind_eq_some_iff.1 hs
    obtain ⟨rest, th', hm, he⟩ := move_stepThread hth hs
    exact ⟨th, rest, th', hth, Option.not_isSome_iff_eq_none.1 hcrash, hm, he⟩

/-! ## The other threads -/

/-- A thread that a step adds: it was given a body, or it works for a runtime that was built. -/
def Added (th x : Thread σ) : Prop :=
  (∃ body next, th.control = .run (.onThread body next) ∧ x = .plain body) ∨
    ∃ settings space next runtime worker, th.control = .run (.build settings space next) ∧
      x = .pooled runtime worker

variable {rest : Machine σ} {th' x : Thread σ} {other : ThreadId}

theorem Move.threads (hm : m.Move id th rest th') :
    ∃ added, rest.threads = m.threads ++ added ∧ ∀ x ∈ added, Added th x := by
  have hsame : ∀ {threads : List (Thread σ)}, threads = m.threads →
      ∃ added, threads = m.threads ++ added ∧ ∀ x ∈ added, Added th x :=
    fun he => ⟨[], by rw [he, List.append_nil], fun x hx => by cases hx⟩
  cases hm with
  | launched hctl =>
    refine ⟨_, rfl, fun x hx => ?_⟩
    obtain ⟨i, _, rfl⟩ := List.mem_map.1 hx
    exact .inr ⟨_, _, _, _, _, hctl, rfl⟩
  | forked hctl =>
    refine ⟨_, rfl, fun x hx => ?_⟩
    cases List.mem_singleton.1 hx
    exact .inl ⟨_, _, hctl, rfl⟩
  | closed => exact hsame (threads_dropQueues _ _)
  | crashed ha => cases ha <;> exact hsame rfl
  | _ => exact hsame rfl

theorem Move.self (hm : m.Move id th rest th') (hth : m.threads[id]? = some th) :
    (rest.setThread id th').threads[id]? = some th' := by
  obtain ⟨added, hadded, _⟩ := hm.threads
  refine List.getElem?_set_self ?_
  rw [hadded, List.length_append]
  exact Nat.lt_add_right _ (List.getElem?_eq_some_iff.1 hth).1

/-- The other threads stay as they are, but for those that are added. -/
theorem Move.others (hm : m.Move id th rest th') (hne : other ≠ id) :
    (rest.setThread id th').threads[other]? = m.threads[other]? ∨
      m.threads[other]? = none ∧ ∃ x, (rest.setThread id th').threads[other]? = some x ∧ Added th x := by
  obtain ⟨added, hadded, hx⟩ := hm.threads
  simp only [setThread, List.getElem?_set_ne hne.symm, hadded]
  rcases Nat.lt_or_ge other m.threads.length with hlt | hge
  · exact .inl (List.getElem?_append_left hlt)
  · rw [List.getElem?_append_right hge, List.getElem?_eq_none hge]
    cases hy : added[other - m.threads.length]? with
    | none => exact .inl rfl
    | some x => exact .inr ⟨rfl, x, rfl, hx x (List.mem_of_getElem? hy)⟩

theorem Move.kept (hm : m.Move id th rest th') (hx : m.threads[other]? = some x) (hne : other ≠ id) :
    (rest.setThread id th').threads[other]? = some x := by
  rcases hm.others hne with hsame | ⟨hnone, _⟩
  · exact hsame.trans hx
  · cases hnone.symm.trans hx

/-- A thread of the machine that a move leaves. -/
theorem Move.thread_cases (hm : m.Move id th rest th') (hth : m.threads[id]? = some th)
    (hx : (rest.setThread id th').threads[other]? = some x) :
    other = id ∧ x = th' ∨ other ≠ id ∧ m.threads[other]? = some x ∨
      other ≠ id ∧ m.threads[other]? = none ∧ Added th x := by
  by_cases hne : other = id
  · subst hne
    exact .inl ⟨rfl, Option.some.inj (hx.symm.trans (hm.self hth))⟩
  · rcases hm.others hne with hsame | ⟨hnone, y, hy, ha⟩
    · exact .inr (.inl ⟨hne, hsame ▸ hx⟩)
    · cases hy.symm.trans hx
      exact .inr (.inr ⟨hne, hnone, ha⟩)

end Machine

end TaskSpace

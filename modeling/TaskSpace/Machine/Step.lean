import TaskSpace.Machine.State

/-!
The steps of a machine. A step is taken by one thread and is atomic; it is not possible while the
thread waits. Which threads step, and what a search among shared tasks finds, is chosen from outside.
-/
namespace TaskSpace

/-- What is left open when a worker looks for a task: whether it misses the injector when it should
look there first, and where it looks when it has no task of its own. -/
structure Choice where
  missForced : Bool
  batch : Nat
  pick : Pick
deriving DecidableEq, Repr

namespace Machine

variable {σ : Type}

/-! ## Brackets -/

/-- Begins a body on a thread: its holder becomes the current one. -/
def openBracket (m : Machine σ) (id : ThreadId) (th : Thread σ) (storage : StorageId)
    (task : TaskId) (frame : Bracket → Frame σ) (body : Body σ) : Machine σ :=
  match m.ledger.openBracket storage id (some task) th.holder with
  | (.error error, ledger) => { m with ledger }.fail (.registry error)
  | (.ok bracket, ledger) =>
    { m with ledger }.setThread id { th.setTask (some task) with
      control := .run body
      frames := frame bracket :: th.frames
      holder := some bracket.holder }

/-- Ends the body on top of a thread, which goes on as `control` says. -/
def closeBracket (m : Machine σ) (id : ThreadId) (th : Thread σ) (bracket : Bracket)
    (outer : Option TaskId) (frames : List (Frame σ)) (control : Control σ) : Machine σ :=
  match m.ledger.closeBracket id bracket with
  | (.error error, ledger) => { m with ledger }.fail (.registry error)
  | (.ok _, ledger) =>
    { m with ledger }.setThread id { th.setTask outer with
      control, frames, holder := bracket.parent }

/-! ## Runtimes -/

/-- Registers the threads of the pool, and after them the thread that builds. -/
def registerAll (slots : Slots) (root : ThreadId) (storages : List StorageId)
    (pool : List ThreadId) : Slots :=
  let entries := (pool.zip storages.tail).zipIdx 1
  let slots := entries.foldl (fun slots ((thread, storage), worker) =>
    (slots.register thread worker storage).2) slots
  match storages with
  | storage :: _ => (slots.register root WorkerId.root storage).2
  | [] => slots

def addStorages (ledger : Ledger) (space : SpaceId) (workers : Nat) : List StorageId × Ledger :=
  (List.range workers).foldl (fun (ids, ledger) worker =>
    let (id, ledger) := ledger.addStorage worker space
    (ids ++ [id], ledger)) ([], ledger)

/-- A runtime that was configured: its threads start, and the thread that built it works for it. -/
def launch (m : Machine σ) (id : ThreadId) (th : Thread σ) (config : Config)
    (space : Option SpaceId) (next : Except BuildError RuntimeId → Body σ) : Machine σ :=
  let (space, ledger) := match space with
    | some space => (space, m.ledger)
    | none => m.ledger.addSpace { space := config.space, localized := [], released := [] }
  let (storages, ledger) := addStorages ledger space config.numWorkers
  let runtime := m.runtimes.length
  let pool := (List.range config.poolSize).map (m.threads.length + ·)
  let slots := registerAll (.empty config.numWorkers) id storages pool
  let workers := (List.range config.poolSize).map fun i => Thread.pooled runtime (i + 1)
  let rt : Runtime :=
    { config, space, storages, queues := .empty config.numWorkers
      lot := { Lot.empty 0 with slots }, stopping := false, pool, outer := th.context }
  { m with
    ledger
    runtimes := m.runtimes ++ [rt]
    threads := m.threads.set id { th with
      control := .run (next (.ok runtime))
      context := some ⟨runtime, WorkerId.root, none⟩
      active := true } ++ workers }

/-- Builds a runtime. A build that is refused changes nothing. -/
def build (m : Machine σ) (id : ThreadId) (th : Thread σ) (settings : Settings)
    (space : Option SpaceId) (next : Except BuildError RuntimeId → Body σ) : Machine σ :=
  let refuse (error : BuildError) := m.setThread id (th.continueWith (next (.error error)))
  if th.active then refuse .alreadyActive
  else
    match settings.toConfig m.parallelism with
    | .error error => refuse (.config error)
    | .ok config =>
      match config.checkPool with
      | .error error => refuse error
      | .ok _ => m.launch id th config space next

/-! ## Tasks -/

def noRuntime : Payload := .fixed "must be called from the context of a gasrt runtime"

/-- Spawns a task: on the lane of the worker that the thread is, or through the injector if the
thread works for another runtime. -/
def spawnOn (m : Machine σ) (id : ThreadId) (th : Thread σ) (runtime : RuntimeId)
    (options : SpawnOptions) (child : Body σ) (next : Except Payload TaskId → Body σ) :
    Option (Machine σ) := do
  let rt ← m.runtimes[runtime]?
  let task := m.tasks.length + 1
  let sticky := options.sticky || rt.config.defaultSticky
  let queue (q : Queues) : Queues :=
    match th.context with
    | some c => if c.runtime = runtime then q.add c.worker sticky task else q.inject task
    | none => q.inject task
  let m := m.updateRuntime runtime fun rt => { rt with queues := queue rt.queues }
  let spawned : Spawned σ := ⟨.spawned task sticky options.name child, runtime⟩
  let m := { m with tasks := m.tasks ++ [spawned] }
  return m.setThread id { th with control := .wake runtime (next (.ok task)) }

/-- Gives the outcome of a terminal task to a body that waits for it. -/
def deliver (m : Machine σ) (id : ThreadId) (th : Thread σ) (kind : WaitKind)
    (cell : Cell (Body σ)) (next : Outcome → Body σ) : Machine σ :=
  let outcome := match kind with
    | .get => cell.get
    | .join => cell.join
  match outcome with
  | .ok outcome => m.setThread id (th.continueWith (next outcome))
  | .error violation => m.fail (.task violation)

/-- Begins to wait for a task. A worker takes the body of a task that nobody took, and runs it
first. -/
def beginWait (m : Machine σ) (id : ThreadId) (th : Thread σ) (kind : WaitKind) (task : TaskId)
    (next : Outcome → Body σ) : Option (Machine σ) := do
  let cell ← m.cell? task
  if cell.state.isTerminal then return m.deliver id th kind cell next
  else
    match cell.state, th.context.bind m.storageOf, cell.take with
    | .created, some storage, some (body, cell) =>
      return (m.setCell cell).setThread id { th with
        control := .begin task storage body
        frames := .joiner kind task next :: th.frames }
    | _, _, _ => return m.setThread id { th with control := .wait kind task next }

/-- Takes the body of a queued task that the thread holds, unless it is gone. -/
def runHeld (m : Machine σ) (id : ThreadId) (th : Thread σ) (task : TaskId) (storage : StorageId)
    (past : Control σ) : Option (Machine σ) := do
  let cell ← m.cell? task
  match cell.take with
  | some (body, cell) =>
    return (m.setCell cell).setThread id { th with control := .begin task storage body }
  | none => return m.setThread id { th with control := past }

/-- Goes back to the frame on top of a thread once a task that it ran is settled. -/
def resume (m : Machine σ) (id : ThreadId) (th : Thread σ) : Option (Machine σ) :=
  match th.frames with
  | .joiner kind task next :: frames => do
    let cell ← m.cell? task
    return m.deliver id { th with frames } kind cell next
  | .loop _ _ _ :: _ => some (m.setThread id { th with control := .tick })
  | .drain _ _ _ :: _ => some (m.setThread id { th with control := .search })
  | _ => none

/-! ## Queues -/

/-- Whether several workers of a runtime may be taking tasks at the same time: those of its pool that
have not ended, and the thread that built it. -/
def contended (m : Machine σ) (rt : Runtime) : Bool :=
  rt.pool.any fun id => ((m.threads[id]?).bind Thread.result?).isNone

/-- The next task of a worker, as the choice says. There is no answer to a choice that the queues do
not admit: a worker alone with its queues misses nothing. -/
def choose (q : Queues) (w : WorkerId) (force contended : Bool) (choice : Choice) :
    Option (Option (TaskId × Queues)) :=
  if force ∧ q.injector ≠ [] ∧ !choice.missForced then some (q.takeInjected w choice.batch)
  else if force ∧ q.injector ≠ [] ∧ !contended then none
  else
    match q.takeLocal w with
    | some found => some (some found)
    | none =>
      match choice.pick with
      | .nothing => if contended ∨ !q.hasStealable w then some none else none
      | .injector batch => (q.takeShared w (.injector batch)).map some
      | .lane v =>
        if v = w ∨ (q.injector ≠ [] ∧ !contended) then none
        else (q.takeShared w (.lane v)).map some

/-- One search by worker `w` of a runtime; a thread that finds nothing becomes `idle`. -/
def search (m : Machine σ) (id : ThreadId) (th : Thread σ) (runtime : RuntimeId) (w : WorkerId)
    (force : Bool) (choice : Choice) (idle : Thread σ) : Option (Machine σ) := do
  let rt ← m.runtimes[runtime]?
  match ← choose rt.queues w force (m.contended rt) choice with
  | some (task, queues) =>
    return (m.updateRuntime runtime fun rt => { rt with queues }).setThread id
      { th with control := .hold task }
  | none => return m.setThread id idle

/-! ## Shutdown -/

def queued (q : Queues) : List TaskId :=
  q.injector ++ q.lanes.flatMap fun lane => lane.pinned ++ lane.own

def dropQueues (m : Machine σ) : List TaskId → Machine σ
  | [] => m
  | task :: rest =>
    match (m.cell? task).map Cell.cancel with
    | some (.ok cell) => dropQueues (m.setCell cell) rest
    | some (.error violation) => m.fail (.task violation)
    | none => dropQueues m rest

def closeStorage (m : Machine σ) (storage : StorageId) : Machine σ :=
  { m with ledger := { m.ledger with roster := m.ledger.roster.updateStorage storage .close } }

def stop (m : Machine σ) (id : ThreadId) (th : Thread σ) (runtime : RuntimeId) (stage : StopStage)
    (next : Body σ) : Option (Machine σ) := do
  let rt ← m.runtimes[runtime]?
  match stage with
  | .wakeAll =>
    match rt.lot.unparkAll with
    | none => return m.fail .noSlot
    | some lot =>
      return (m.updateRuntime runtime fun rt => { rt with lot }).setThread id { th with
        control := .search, frames := .drain runtime .joinPool next :: th.frames }
  | .joinPool =>
    if m.contended rt then none
    else
      return m.setThread id { th with
        control := .search, frames := .drain runtime .close next :: th.frames }
  | .close =>
    let storage ← rt.storages[WorkerId.root]?
    let m := (m.closeStorage storage).dropQueues (queued rt.queues)
    let m := m.updateRuntime runtime fun rt =>
      { rt with queues := .empty rt.config.numWorkers }
    return m.setThread id { th with
      control := .run next, context := rt.outer, active := false }

/-! ## Steps -/

def runBody (m : Machine σ) (id : ThreadId) (th : Thread σ) : Body σ → Option (Machine σ)
  | .finish v =>
    if th.frames.isEmpty then some (m.setThread id { th with control := .ended (.ok v) })
    else some (m.setThread id { th with control := .leave (.ok v) })
  | .panic payload =>
    if th.frames.isEmpty then some (m.setThread id { th with control := .ended (.error payload) })
    else some (m.setThread id { th with control := .leave (.error payload) })
  | .call r next =>
    let (reply, ledger) := m.answer th r
    some ({ m with ledger }.setThread id (th.continueWith (next reply)))
  | .share change next =>
    some ({ m with shared := change m.shared }.setThread id (th.continueWith (next m.shared)))
  | .await ready next =>
    if ready m.shared then some (m.setThread id (th.continueWith (next m.shared))) else none
  | .spawn target options child next =>
    match target <|> th.context.map Context.runtime with
    | some runtime => m.spawnOn id th runtime options child next
    | none => some (m.setThread id (th.continueWith (next (.error noRuntime))))
  | .wait kind task next => m.beginWait id th kind task next
  | .build settings space next => some (m.build id th settings space next)
  | .blockOn runtime root next => do
    let storage ← (← m.runtimes[runtime]?).storages[WorkerId.root]?
    return m.openBracket id th storage TaskId.root (.root · th.currentTask next) root
  | .shutdown runtime next => do
    if (← m.runtimes[runtime]?).stopping then return m.setThread id (th.continueWith next)
    else
      return (m.updateRuntime runtime fun rt => { rt with stopping := true }).setThread id
        { th with control := .stop runtime .wakeAll next }
  | .onThread body next =>
    some { m with threads :=
      m.threads.set id { th with control := .joinThread m.threads.length next } ++ [.plain body] }

def stepSearch (m : Machine σ) (id : ThreadId) (th : Thread σ) (choice : Choice) :
    Option (Machine σ) :=
  match th.frames, th.context with
  | .loop ticker force leaving :: frames, some c =>
    let th := { th with frames := .loop ticker false leaving :: frames }
    m.search id th c.runtime c.worker force choice
      { th with control := if leaving then .exit else .park }
  | .drain runtime stage next :: frames, _ =>
    m.search id th runtime WorkerId.root false choice
      { th with control := .stop runtime stage next, frames }
  | _, _ => none

/-- The step of a worker with a queue entry in its hands. -/
def stepHold (m : Machine σ) (id : ThreadId) (th : Thread σ) (task : TaskId) :
    Option (Machine σ) :=
  match th.frames, th.context with
  | .loop _ _ _ :: _, some c => do m.runHeld id th task (← m.storageOf c) .tick
  | .drain runtime _ _ :: _, _ => do
    m.runHeld id th task (← (← m.runtimes[runtime]?).storages[WorkerId.root]?) .search
  | _, _ => none

/-- The locked section before a worker parks. -/
def stepPark (m : Machine σ) (id : ThreadId) (th : Thread σ) : Option (Machine σ) := do
  let c ← th.context
  let rt ← m.runtimes[c.runtime]?
  if rt.stopping || rt.queues.hasStealable c.worker then
    return m.setThread id { th with control := .tick }
  else
    match rt.lot.park id with
    | none => return m.fail .noSlot
    | some lot =>
      return (m.updateRuntime c.runtime fun rt => { rt with lot }).setThread id
        { th with control := .parked }

def stepTick (m : Machine σ) (id : ThreadId) (th : Thread σ) : Option (Machine σ) :=
  match th.frames, th.context with
  | .loop ticker force leaving :: frames, some c => do
    let rt ← m.runtimes[c.runtime]?
    let (event, ticker) := ticker.next (UInt32.ofNat rt.config.interval) rt.stopping
    let frame := match event with
      | .shutdown => .loop ticker force true
      | .popInjector => .loop ticker true leaving
      | .none => .loop ticker force leaving
    return m.setThread id { th with control := .search, frames := frame :: frames }
  | _, _ => none

def stepExit (m : Machine σ) (id : ThreadId) (th : Thread σ) : Option (Machine σ) := do
  let storage ← m.storageOf (← th.context)
  return (m.closeStorage storage).setThread id
    { th with control := .ended (.ok .none), frames := [], context := none }

def stepThread (m : Machine σ) (id : ThreadId) (th : Thread σ) (choice : Choice) :
    Option (Machine σ) :=
  match th.control with
  | .run body => m.runBody id th body
  | .begin task storage body => do
    match (← m.cell? task).start with
    | .error violation => return m.fail (.task violation)
    | .ok cell =>
      return (m.setCell cell).openBracket id th storage task (.task task · th.currentTask) body
  | .leave result =>
    match th.frames with
    | .task task bracket outer :: frames =>
      let outcome := result.mapError (JoinError.panicked task)
      some (m.closeBracket id th bracket outer frames (.publish task outcome))
    | .root bracket outer next :: frames =>
      some (m.closeBracket id th bracket outer frames (.run (next result)))
    | _ => none
  | .publish task outcome => do
    let cell ← m.cell? task
    return (m.setCell (cell.publish outcome)).setThread id
      { th with control := .settle task outcome.isOk }
  | .settle task completed => do
    match (← m.cell? task).settle completed with
    | .error violation => return m.fail (.task violation)
    | .ok cell => (m.setCell cell).resume id th
  | .wait kind task next => do
    let cell ← m.cell? task
    if cell.state.isTerminal then return m.deliver id th kind cell next else none
  | .wake runtime next => do
    match (← m.runtimes[runtime]?).lot.unparkOne with
    | none => return m.fail .noSlot
    | some lot =>
      return (m.updateRuntime runtime fun rt => { rt with lot }).setThread id
        (th.continueWith next)
  | .search => m.stepSearch id th choice
  | .hold task => m.stepHold id th task
  | .park => m.stepPark id th
  | .parked => do
    let c ← th.context
    if (← m.runtimes[c.runtime]?).lot.signalled id then
      return m.setThread id { th with control := .tick }
    else none
  | .tick => m.stepTick id th
  | .exit => m.stepExit id th
  | .stop runtime stage next => m.stop id th runtime stage next
  | .joinThread thread next => do
    return m.setThread id (th.continueWith (next (← (← m.threads[thread]?).result?)))
  | .ended _ => none

/-- The step of a thread of a machine that has not crashed. -/
def step (m : Machine σ) (id : ThreadId) (choice : Choice) : Option (Machine σ) :=
  if m.crash.isSome then none
  else do m.stepThread id (← m.threads[id]?) choice

end Machine

end TaskSpace

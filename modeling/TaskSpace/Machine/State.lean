import TaskSpace.Machine.Thread
import TaskSpace.Scheduler.Parking
import TaskSpace.Scheduler.Queues

/-!
The state of a machine: its threads, tasks and runtimes, the ledger of memory and holders, and the
state that the bodies share.
-/
namespace TaskSpace

/-- A runtime: one worker, storage, lane and slot for each number below `config.numWorkers`. -/
structure Runtime where
  config : Config
  space : SpaceId
  storages : List StorageId
  queues : Queues
  lot : Lot
  stopping : Bool
  pool : List ThreadId
  outer : Option Context

/-- A spawned task, and the runtime that it was spawned on. -/
structure Spawned (σ : Type) where
  cell : Cell (Body σ)
  runtime : RuntimeId

inductive Crash where
  | registry (error : RegistryError)
  | task (violation : Violation)
  /-- A thread without a slot was to park or to be woken. -/
  | noSlot
deriving DecidableEq, Repr

/-- Tasks are named by their place, from `1`; threads and runtimes by their place, from `0`. -/
structure Machine (σ : Type) where
  shared : σ
  ledger : Ledger
  tasks : List (Spawned σ)
  runtimes : List Runtime
  threads : List (Thread σ)
  crash : Option Crash
  /-- The workers of a pool whose size nobody set. -/
  parallelism : Nat

namespace Machine

variable {σ : Type}

def start (parallelism : Nat) (spaces : List Recorder) (shared : σ) (body : Body σ) : Machine σ :=
  { shared, ledger := { spaces, roster := .empty }, tasks := [], runtimes := []
    threads := [.plain body], crash := none, parallelism }

def setThread (m : Machine σ) (id : ThreadId) (th : Thread σ) : Machine σ :=
  { m with threads := m.threads.set id th }

def task? (m : Machine σ) (id : TaskId) : Option (Spawned σ) :=
  match id with
  | 0 => none
  | place + 1 => m.tasks[place]?

def cell? (m : Machine σ) (id : TaskId) : Option (Cell (Body σ)) := (m.task? id).map Spawned.cell

def setCell (m : Machine σ) (cell : Cell (Body σ)) : Machine σ :=
  { m with tasks := m.tasks.modify (cell.id - 1) fun t => { t with cell } }

def updateRuntime (m : Machine σ) (id : RuntimeId) (f : Runtime → Runtime) : Machine σ :=
  { m with runtimes := m.runtimes.modify id f }

def fail (m : Machine σ) (crash : Crash) : Machine σ := { m with crash := some crash }

def site (m : Machine σ) (th : Thread σ) : Option Site := do
  let c ← th.context
  let rt ← m.runtimes[c.runtime]?
  return { space := rt.space, worker := c.worker, holder := th.holder }

def storageOf (m : Machine σ) (c : Context) : Option StorageId := do
  (← m.runtimes[c.runtime]?).storages[c.worker]?

def answer (m : Machine σ) (th : Thread σ) : (r : Request) → r.Reply × Ledger
  | .memory op => m.ledger.perform (m.site th) op
  | .read ref => (m.ledger.read ref, m.ledger)
  | .write ref off bytes => m.ledger.write ref off bytes
  | .mapping ref => (m.ledger.mapping? ref, m.ledger)
  | .currentTask => (th.currentTask, m.ledger)
  | .currentWorker => (th.context.map Context.worker, m.ledger)
  | .currentHolder =>
    (th.holder.bind fun id => (m.ledger.roster.holder? id).map (·.view id), m.ledger)
  | .currentStorage =>
    ((th.context.bind m.storageOf).bind fun id => (m.ledger.roster.storages[id]?).map Storage.view,
      m.ledger)
  | .state task => ((m.cell? task).map Cell.state, m.ledger)
  | .runtime id =>
    ((m.runtimes[id]?).map fun rt =>
      { workers := rt.lot.slots.len
        storages := rt.lot.slots.storages.filterMap fun s =>
          (m.ledger.roster.storages[s]?).map Storage.worker }, m.ledger)

end Machine

end TaskSpace

import TaskSpace.Machine.Body
import TaskSpace.Scheduler.Ticker

/-!
Threads: what a thread does next, the bodies suspended below it, and the runtime it works for.
-/
namespace TaskSpace

/-- The runtime and the worker that a thread works as, and the task that it runs. -/
structure Context where
  runtime : RuntimeId
  worker : WorkerId
  task : Option TaskId
deriving DecidableEq, Repr

/-- The stages of a shutdown, in order. After each of the first two, what is queued runs. -/
inductive StopStage where
  | wakeAll
  | joinPool
  | close
deriving DecidableEq, Repr

/-- What a thread comes back to when the body that it runs is over, innermost first. -/
inductive Frame (σ : Type) where
  /-- The body of a task; `outer` is the task that the thread ran before. -/
  | task (task : TaskId) (bracket : Bracket) (outer : Option TaskId)
  /-- The body of a block-on call. -/
  | root (bracket : Bracket) (outer : Option TaskId) (next : Except Payload Value → Body σ)
  /-- A body that runs the task it waits for. -/
  | joiner (kind : WaitKind) (task : TaskId) (next : Outcome → Body σ)
  | loop (ticker : Ticker) (force leaving : Bool)
  /-- A shutdown that runs what is queued, before it goes on to a stage. -/
  | drain (runtime : RuntimeId) (stage : StopStage) (next : Body σ)

/-- What a thread does next. Each is one atomic step, or a wait. -/
inductive Control (σ : Type) where
  | run (body : Body σ)
  /-- The body of a task was taken, and is to run with the storage. -/
  | begin (task : TaskId) (storage : StorageId) (body : Body σ)
  /-- The body on top is over; its bracket is still open. -/
  | leave (result : Except Payload Value)
  | publish (task : TaskId) (outcome : Outcome)
  | settle (task : TaskId) (completed : Bool)
  | wait (kind : WaitKind) (task : TaskId) (next : Outcome → Body σ)
  /-- A task was queued, and a worker of the runtime is to be woken. -/
  | wake (runtime : RuntimeId) (next : Body σ)
  | search
  /-- Found the queue entry of a task. -/
  | hold (task : TaskId)
  /-- Found no task, and is to park unless there is a reason not to. -/
  | park
  | parked
  | tick
  | exit
  | stop (runtime : RuntimeId) (stage : StopStage) (next : Body σ)
  | joinThread (thread : ThreadId) (next : Except Payload Value → Body σ)
  | ended (result : Except Payload Value)

structure Thread (σ : Type) where
  control : Control σ
  frames : List (Frame σ)
  context : Option Context
  /-- The holder of the innermost body. -/
  holder : Option HolderId
  /-- Whether a runtime built by this thread is still up. -/
  active : Bool

namespace Thread

variable {σ : Type}

/-- A thread that works for no runtime. -/
def plain (body : Body σ) : Thread σ :=
  { control := .run body, frames := [], context := none, holder := none, active := false }

def pooled (runtime : RuntimeId) (worker : WorkerId) : Thread σ :=
  { control := .search, frames := [.loop .start false false]
    context := some ⟨runtime, worker, none⟩, holder := none, active := false }

/-- The task that the thread runs, as its context knows it. -/
def currentTask (th : Thread σ) : Option TaskId := th.context.bind Context.task

/-- Marks the task that the thread runs; a thread that works for no runtime keeps no mark. -/
def setTask (th : Thread σ) (task : Option TaskId) : Thread σ :=
  { th with context := th.context.map fun c => { c with task } }

def continueWith (th : Thread σ) (body : Body σ) : Thread σ := { th with control := .run body }

def result? (th : Thread σ) : Option (Except Payload Value) :=
  match th.control with
  | .ended result => some result
  | _ => none

end Thread

end TaskSpace

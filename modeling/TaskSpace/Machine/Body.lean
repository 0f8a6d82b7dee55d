import TaskSpace.Machine.Memory
import TaskSpace.Registry.View
import TaskSpace.Scheduler.Settings
import TaskSpace.Task.Cell

/-!
Bodies: what tasks, block-on calls and threads do, as trees of the requests they make. A body gets
the answer to a request before it goes on, so it may do anything with it.
-/
namespace TaskSpace

/-- What a runtime shows to those who hold it. -/
structure RuntimeView where
  workers : Nat
  /-- The storages registered, in the order of the workers. -/
  storages : List WorkerId
deriving DecidableEq, Repr

/-- Questions and memory operations: they are answered at once, and start nothing. -/
inductive Request where
  | memory (op : MemoryOp)
  | read (ref : LocalRef)
  | write (ref : LocalRef) (off : Nat) (bytes : Bytes)
  | mapping (ref : LocalRef)
  | currentTask
  | currentWorker
  | currentHolder
  | currentStorage
  | state (task : TaskId)
  | runtime (id : RuntimeId)

@[reducible] def Request.Reply : Request → Type
  | memory op => op.Reply
  | read _ => Except Fault Bytes
  | write _ _ _ => Except Fault Unit
  | mapping _ => Option Mapping
  | currentTask => Option TaskId
  | currentWorker => Option WorkerId
  | currentHolder => Option HolderView
  | currentStorage => Option StorageView
  | state _ => Option TaskState
  | runtime _ => Option RuntimeView

/-- How a task is spawned. Every task of a local runtime is sticky, whatever is asked for. -/
structure SpawnOptions where
  sticky : Bool
  name : Option String
deriving DecidableEq, Repr, Inhabited

/-- A wait either only looks at the outcome, or uses the join handle up. -/
inductive WaitKind where
  | get
  | join
deriving DecidableEq, Repr

/-- Bodies share a state of type `σ`, on which each of their accesses is atomic. -/
inductive Body (σ : Type) where
  | finish (v : Value)
  | panic (payload : Payload)
  | call (r : Request) (next : r.Reply → Body σ)
  /-- Changes the shared state, and goes on with what it was before. -/
  | share (change : σ → σ) (next : σ → Body σ)
  /-- Goes on once the shared state is ready. -/
  | await (ready : σ → Bool) (next : σ → Body σ)
  /-- Spawns a task on the given runtime, or else on the one that the thread works for. The answer
  is the panic of a thread that works for none. -/
  | spawn (target : Option RuntimeId) (options : SpawnOptions) (child : Body σ)
      (next : Except Payload TaskId → Body σ)
  | wait (kind : WaitKind) (task : TaskId) (next : Outcome → Body σ)
  /-- Builds a runtime, on a given space if there is one. -/
  | build (settings : Settings) (space : Option SpaceId)
      (next : Except BuildError RuntimeId → Body σ)
  | blockOn (runtime : RuntimeId) (root : Body σ) (next : Except Payload Value → Body σ)
  /-- Shuts down a runtime of this thread, and drops it. -/
  | shutdown (runtime : RuntimeId) (next : Body σ)
  /-- Runs a body on a new thread, and waits for its end. -/
  | onThread (body : Body σ) (next : Except Payload Value → Body σ)

namespace Body

variable {σ : Type}

def ofResult : Except Payload Value → Body σ
  | .ok v => .finish v
  | .error payload => .panic payload

/-- The same body, going on with `next` where it would end; a body that runs elsewhere stays as it
is. -/
def andThen (body : Body σ) (next : Except Payload Value → Body σ) : Body σ :=
  match body with
  | finish v => next (.ok v)
  | panic payload => next (.error payload)
  | call r k => .call r fun a => (k a).andThen next
  | share f k => .share f fun s => (k s).andThen next
  | await ready k => .await ready fun s => (k s).andThen next
  | spawn target options child k => .spawn target options child fun a => (k a).andThen next
  | wait kind task k => .wait kind task fun a => (k a).andThen next
  | build settings space k => .build settings space fun a => (k a).andThen next
  | blockOn runtime root k => .blockOn runtime root fun a => (k a).andThen next
  | shutdown runtime k => .shutdown runtime (k.andThen next)
  | onThread body k => .onThread body fun a => (k a).andThen next

end Body

end TaskSpace

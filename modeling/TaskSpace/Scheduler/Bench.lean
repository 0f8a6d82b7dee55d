import TaskSpace.Registry.Ledger
import TaskSpace.Scheduler.Search
import TaskSpace.Task.Cell

/-!
One worker that is not running its event loop. Someone else has it queue tasks, search for them, run or
drop those that were found, join them, and drain the queues. A body that runs may queue and join tasks.
-/
namespace TaskSpace

/-- Where a new task is queued. -/
inductive Target where
  /-- With the worker, which pins sticky tasks. -/
  | worker
  | injector
  /-- With another worker, where it can be stolen. -/
  | other (v : WorkerId)
deriving DecidableEq, Repr

/-- The worker uses storage `0`, on thread `0`. Tasks are named by their place, from `1`. -/
structure Bench (β : Type) where
  queues : Queues
  tasks : List (Cell β)
  ledger : Ledger
  /-- What was found and is yet to be run or dropped. -/
  held : List TaskId
  /-- The bodies that run, innermost first, in their brackets. -/
  bodies : List (TaskId × Bracket)
  /-- How many entries a drain has taken so far, while there is one. -/
  draining : Option Nat

namespace Bench

/-- What is done on a bench, up to the next thing that is done on it. -/
inductive Act (β : Type) where
  | spawn (sticky : Bool) (target : Target) (body : β)
  /-- Searches for a task, and holds it. -/
  | find (batch : Nat)
  | run (task : TaskId)
  | drop (task : TaskId)
  | join (task : TaskId)
  | drain
  /-- The drain searches for a task, and runs it; it is over if there is none. -/
  | next (batch : Nat)
  /-- The innermost body returns or panics. -/
  | finish (result : Except Payload Value)

variable {β : Type} {n : Nat}

def storage : StorageId := 0

def thread : ThreadId := 0

/-- `label` is the number of the worker, as the storage knows it. -/
def start (n : Nat) (spaces : List Recorder) (label : WorkerId) (space : SpaceId) : Bench β :=
  { queues := .empty n, tasks := []
    ledger := { spaces, roster := { holders := [], storages := [.fresh label space] } }
    held := [], bodies := [], draining := none }

def cell? (b : Bench β) (task : TaskId) : Option (Cell β) :=
  match task with
  | 0 => none
  | place + 1 => b.tasks[place]?

def setCell (b : Bench β) (cell : Cell β) : Bench β :=
  { b with tasks := b.tasks.set (cell.id - 1) cell }

/-! ## Tasks -/

def queue (s : Searcher n) (q : Queues) (task : TaskId) (sticky : Bool) : Target → Queues
  | .worker => q.add s.worker sticky task
  | .injector => q.inject task
  | .other v => q.add v false task

def spawn (s : Searcher n) (b : Bench β) (sticky : Bool) (target : Target) (body : β) : Bench β :=
  let task := b.tasks.length + 1
  { b with
    tasks := b.tasks ++ [.spawned task sticky none body]
    queues := queue s b.queues task sticky target }

def search (s : Searcher n) (b : Bench β) (batch : Nat) : Option (TaskId × Bench β) :=
  (b.queues.search s batch).map fun (task, queues) => (task, { b with queues })

/-- Begins the body of a task, unless it is gone. -/
def enter (b : Bench β) (task : TaskId) : Option (Bench β) := do
  let cell ← b.cell? task
  match cell.take with
  | none => return b
  | some (_, cell) =>
    let holder := b.bodies.head?.map fun (_, bracket) => bracket.holder
    match cell.start, b.ledger.openBracket storage thread (some task) holder with
    | .ok cell, (.ok bracket, ledger) =>
      return { b.setCell cell with ledger, bodies := (task, bracket) :: b.bodies }
    | _, _ => none

/-- Ends the innermost body, and publishes the outcome of its task. -/
def leave (b : Bench β) (result : Except Payload Value) : Option (Bench β) := do
  let (task, bracket) ← b.bodies.head?
  let cell ← b.cell? task
  match b.ledger.closeBracket thread bracket,
    cell.complete (result.mapError fun payload => .panicked task payload) with
  | (.ok _, ledger), .ok cell => return { b.setCell cell with ledger, bodies := b.bodies.tail }
  | _, _ => none

/-- Drops the entry of a task, whose body is gone or will never run. -/
def discard (b : Bench β) (task : TaskId) : Option (Bench β) := do
  let cell ← b.cell? task
  match cell.cancel with
  | .ok cell => return b.setCell cell
  | .error _ => none

/-! ## Acts -/

/-- Nobody but the one who uses the bench does anything on it. -/
def Idle (b : Bench β) : Prop := b.bodies = [] ∧ b.draining = none

instance (b : Bench β) : Decidable b.Idle := inferInstanceAs (Decidable (_ ∧ _))

/-- Whether something may be done now. While a body runs, nobody but that body does anything, apart from
queueing tasks. Who joins a task that runs waits for ever. -/
def Allows (s : Searcher n) (b : Bench β) : Act β → Prop
  | .spawn _ (.other v) _ => v < n ∧ v ≠ s.worker
  | .spawn _ _ _ => True
  | .find _ | .drain => b.Idle
  | .run task | .drop task => b.Idle ∧ task ∈ b.held
  | .join task => (b.bodies = [] → b.draining = none) ∧
    (b.cell? task).any fun cell => cell.state ≠ .running
  | .next _ => b.bodies = [] ∧ b.draining.isSome
  | .finish _ => b.bodies ≠ []

instance (s : Searcher n) (b : Bench β) : (act : Act β) → Decidable (b.Allows s act)
  | .spawn _ (.other _) _ | .run _ | .drop _ | .join _ | .next _ => inferInstanceAs (Decidable (_ ∧ _))
  | .spawn _ .worker _ | .spawn _ .injector _ => inferInstanceAs (Decidable True)
  | .find _ | .drain => inferInstanceAs (Decidable (Idle b))
  | .finish _ => inferInstanceAs (Decidable (_ ≠ _))

def perform (s : Searcher n) (b : Bench β) : Act β → Option (Bench β)
  | .spawn sticky target body => some (b.spawn s sticky target body)
  | .find batch =>
    match b.search s batch with
    | none => some b
    | some (task, b) => some { b with held := b.held ++ [task] }
  | .run task => { b with held := b.held.erase task }.enter task
  | .drop task => { b with held := b.held.erase task }.discard task
  | .join task =>
    if (b.cell? task).any fun cell => cell.state.isTerminal then some b else b.enter task
  | .drain => some { b with draining := some 0 }
  | .next batch =>
    match b.search s batch with
    | none => some { b with draining := none }
    | some (task, b) => { b with draining := b.draining.map (· + 1) }.enter task
  | .finish result => b.leave result

/-- Does what is possible now. A broken promise would stop the process. -/
def step (s : Searcher n) (b : Bench β) (act : Act β) : Option (Bench β) :=
  if b.Allows s act then b.perform s act else none

end Bench

end TaskSpace

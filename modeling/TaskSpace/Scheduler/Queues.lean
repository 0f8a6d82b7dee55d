import TaskSpace.Identifier

/-!
The queues that workers take tasks from: one lane for each worker, and the injector that they share.
-/
namespace TaskSpace

/-- The queues of one worker, newest task first. Only the worker itself takes pinned tasks; others
may steal the oldest of its own. -/
structure Lane where
  pinned : List TaskId
  own : List TaskId
deriving DecidableEq, Repr, Inhabited

/-- The injector holds its oldest task first. -/
structure Queues where
  injector : List TaskId
  lanes : List Lane
deriving DecidableEq, Repr

/-- Where a worker without tasks of its own gets one: the injector, from which `batch` more tasks
move along, or the lane of another worker. -/
inductive Pick where
  | injector (batch : Nat)
  | lane (worker : WorkerId)
  | nothing
deriving DecidableEq, Repr

namespace Queues

def empty (workers : Nat) : Queues := { injector := [], lanes := List.replicate workers ⟨[], []⟩ }

def lane (q : Queues) (w : WorkerId) : Lane := (q.lanes[w]?).getD ⟨[], []⟩

def setLane (q : Queues) (w : WorkerId) (lane : Lane) : Queues :=
  { q with lanes := q.lanes.set w lane }

/-- Queues a task that comes from no worker. -/
def inject (q : Queues) (task : TaskId) : Queues := { q with injector := q.injector ++ [task] }

/-- Queues a task with worker `w`. -/
def add (q : Queues) (w : WorkerId) (sticky : Bool) (task : TaskId) : Queues :=
  let lane := q.lane w
  q.setLane w (if sticky then { lane with pinned := task :: lane.pinned }
    else { lane with own := task :: lane.own })

/-- Takes the oldest injected task, and moves the next `batch` to worker `w`. They stand so that the
worker takes them in the order they were injected. -/
def takeInjected (q : Queues) (w : WorkerId) (batch : Nat) : Option (TaskId × Queues) :=
  match q.injector with
  | [] => none
  | task :: rest =>
    let lane := q.lane w
    some (task, { q with injector := rest.drop batch }.setLane w
      { lane with own := rest.take batch ++ lane.own })

/-- Takes the oldest own task of worker `v`. -/
def steal (q : Queues) (v : WorkerId) : Option (TaskId × Queues) :=
  let lane := q.lane v
  lane.own.getLast?.map fun task => (task, q.setLane v { lane with own := lane.own.dropLast })

/-- Takes a pinned task of worker `w`, or else one of its own, the newest first. -/
def takeLocal (q : Queues) (w : WorkerId) : Option (TaskId × Queues) :=
  let lane := q.lane w
  match lane.pinned with
  | task :: pinned => some (task, q.setLane w { lane with pinned })
  | [] =>
    match lane.own with
    | task :: own => some (task, q.setLane w { lane with own })
    | [] => none

def takeShared (q : Queues) (w : WorkerId) : Pick → Option (TaskId × Queues)
  | .injector batch => q.takeInjected w batch
  | .lane v => q.steal v
  | .nothing => none

/-- The next task of worker `w`. A forced look at the injector comes before everything else. -/
def find (q : Queues) (w : WorkerId) (forced : Option Nat) (pick : Pick) :
    Option (TaskId × Queues) :=
  (forced.bind (q.takeInjected w)) <|> q.takeLocal w <|> q.takeShared w pick

/-- What a search that nobody disturbs picks for worker `w`: the injector, then the first of the
`others` with a task to steal. -/
def scan (q : Queues) (batch : Nat) (others : List WorkerId) : Pick :=
  if q.injector ≠ [] then .injector batch
  else
    match others.find? fun v => (q.lane v).own ≠ [] with
    | some v => .lane v
    | none => .nothing

/-- About half of what is left moves along with an injected task, at most 32. -/
def halfBatch (q : Queues) : Nat := min (q.injector.length / 2) 32

def others (q : Queues) (w : WorkerId) : List WorkerId :=
  (List.range q.lanes.length).filter (· ≠ w)

/-- Whether worker `w` could take a task that is not its own. -/
def hasStealable (q : Queues) (w : WorkerId) : Bool :=
  q.injector ≠ [] || (q.others w).any fun v => (q.lane v).own ≠ []

end Queues

end TaskSpace

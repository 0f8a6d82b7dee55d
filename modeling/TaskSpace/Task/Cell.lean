import TaskSpace.Task.JoinError
import TaskSpace.Task.Value

/-!
A task between its spawn and its last join: the body waiting to be taken, the state, and the slot
for the outcome.
-/
namespace TaskSpace

inductive TaskState where
  | created
  | running
  | completed
  | failed
deriving DecidableEq, Repr, Inhabited

namespace TaskState

def isTerminal (s : TaskState) : Bool := s = completed || s = failed

def name : TaskState → String
  | created => "Created"
  | running => "Running"
  | completed => "Completed"
  | failed => "Failed"

end TaskState

abbrev Outcome := Except JoinError Value

/-- `held` says that the side of the task, its body or whoever runs it, still shares the slot. -/
structure Cell (β : Type) where
  id : TaskId
  sticky : Bool
  name : Option String
  body : Option β
  state : TaskState := .created
  outcome : Option Outcome := none
  held : Bool := true

/-- The broken promises that would stop a process, as no caller can handle them. -/
inductive Violation where
  | ranTwice (task : TaskId)
  | completedTwice (task : TaskId)
  | noOutcome (task : TaskId)
  | stillShared (task : TaskId)
deriving DecidableEq, Repr

namespace Cell

variable {β : Type}

def spawned (id : TaskId) (sticky : Bool) (name : Option String) (body : β) : Cell β :=
  { id, sticky, name, body := some body }

/-- Takes the body. Whoever takes it first runs it; later attempts find none. -/
def take (c : Cell β) : Option (β × Cell β) :=
  c.body.map fun body => (body, { c with body := none })

def start (c : Cell β) : Except Violation (Cell β) :=
  if c.state = .created then .ok { c with state := .running } else .error (.ranTwice c.id)

/-- Writes the outcome, unless one is written, and lets go of the slot. -/
def publish (c : Cell β) (outcome : Outcome) : Cell β :=
  { c with outcome := c.outcome <|> some outcome, held := false }

/-- To the terminal state, which wakes those who wait. -/
def settle (c : Cell β) (completed : Bool) : Except Violation (Cell β) :=
  if c.state.isTerminal then .error (.completedTwice c.id)
  else .ok { c with state := if completed then .completed else .failed }

/-- Both steps of completing a task. -/
def complete (c : Cell β) (outcome : Outcome) : Except Violation (Cell β) :=
  (c.publish outcome).settle outcome.isOk

/-- The queue entry is dropped: a body that nobody took fails the task. -/
def cancel (c : Cell β) : Except Violation (Cell β) :=
  match c.take with
  | none => .ok c
  | some (_, c) => c.complete (.error (.cancelled c.id))

def get (c : Cell β) : Except Violation Outcome :=
  match c.outcome with
  | some outcome => .ok outcome
  | none => .error (.noOutcome c.id)

/-- The outcome of a terminal task for the one who joins it, and must be the last to share it. -/
def join (c : Cell β) : Except Violation Outcome :=
  if c.held then .error (.stillShared c.id)
  else .ok (c.outcome.getD (.error (.cancelled c.id)))

def describe (c : Cell β) : String :=
  let opts := if c.sticky then "TaskOpts(STICKY)" else "TaskOpts(0x0)"
  let name := match c.name with
    | some name => "Some(" ++ Text.quote name ++ ")"
    | none => "None"
  "Task \x7b header: Header \x7b id: Id(" ++ toString c.id ++ "), opts: " ++ opts ++ ", name: "
    ++ name ++ " \x7d \x7d"

end Cell

def TaskState.describeHandle (state : TaskState) (task : TaskId) : String :=
  "JoinHandle \x7b id: Id(" ++ toString task ++ "), state: " ++ state.name ++ " \x7d"

end TaskSpace

import TaskSpace.Machine.Body
import TaskSpace.Script.Answer
import TaskSpace.Script.Names

/-!
What the bodies of a task program share: the names that they bind, the runtime that is up, and the
log of what their statements answer.
-/
namespace TaskSpace

/-- A named join handle, and how many bodies are inside a wait that only looks. -/
structure NamedTask where
  task : TaskId
  awaits : Nat
deriving DecidableEq, Repr

structure Board where
  pointers : Names Pointer
  refs : Names LocalRef
  tasks : Names NamedTask
  runtime : Option RuntimeId
  built : List RuntimeId
  /-- Labels and answers, newest first. -/
  log : List (String × Answer)

namespace Board

def empty : Board :=
  { pointers := [], refs := [], tasks := [], runtime := none, built := [], log := [] }

def write (b : Board) (label : String) (answer : Answer) : Board :=
  { b with log := (label, answer) :: b.log }

def bindPointer (b : Board) (name : String) (ptr : Pointer) : Board :=
  { b with pointers := b.pointers.bind name ptr }

def bindRef (b : Board) (name : String) (ref : LocalRef) : Board :=
  { b with refs := b.refs.bind name ref }

def bindRefs (b : Board) (name : String) (refs : List LocalRef) : Board :=
  { b with refs := b.refs.bindAll name refs }

def bindTask (b : Board) (name : String) (task : TaskId) : Board :=
  { b with tasks := b.tasks.bind name ⟨task, 0⟩ }

def removeTask (b : Board) (name : String) : Board := { b with tasks := b.tasks.remove name }

def task? (b : Board) (name : String) : Option TaskId := (b.tasks.find? name).map NamedTask.task

/-- Changes the count of waits on a name, if it still stands for the task. -/
def countAwaits (b : Board) (name : String) (task : TaskId) (f : Nat → Nat) : Board :=
  { b with tasks := b.tasks.map fun (other, named) =>
      if other = name ∧ named.task = task then (other, { named with awaits := f named.awaits })
      else (other, named) }

end Board

end TaskSpace

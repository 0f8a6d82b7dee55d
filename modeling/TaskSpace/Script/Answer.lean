import TaskSpace.Memory.Mapping
import TaskSpace.Registry.View
import TaskSpace.Task.Cell

/-!
What the steps of a script answer.
-/
namespace TaskSpace

inductive Answer where
  | done
  | flag (b : Bool)
  | number (n : Nat)
  | text (s : String)
  | pointer (ptr : Pointer)
  | pointers (ptrs : List Pointer)
  | bytes (bytes : Bytes)
  | value (v : Value)
  | home (answer : Except Fault WorkerId)
  | homes (answers : List (Except Fault WorkerId))
  | handle (mapping : Mapping)
  | localRef (mapping : Mapping)
  | failed (fault : Fault)
  | unknownName
  | wouldDeadlock
  | handleBusy
  | noRuntime
  | returned (result : Except Payload Value)
  | registryFailed (error : RegistryError)
  | holder (view : HolderView)
  | current (view : HolderView)
  | storage (view : StorageView)
  | newTask (id : TaskId) (sticky : Bool)
  | task (id : TaskId)
  | taskState (id : TaskId) (state : TaskState)
  /-- The outcome seen by one who only waits. -/
  | awaited (outcome : Outcome)
  | joined (outcome : Outcome)
  | worker (id : WorkerId)
  | workers (count : Nat)
  | buildFailed (message : String)
  | runtime (workers storages : Nat) (storage : Option WorkerId)
deriving Repr

namespace Answer

/-- The answer of an operation that gives nothing when it succeeds. -/
def ofUnit : Except Fault Unit → Answer
  | .ok _ => done
  | .error fault => failed fault

def ofPointer : Except Fault Pointer → Answer
  | .ok ptr => pointer ptr
  | .error fault => failed fault

def ofBytes : Except Fault Bytes → Answer
  | .ok b => bytes b
  | .error fault => failed fault

end Answer

end TaskSpace

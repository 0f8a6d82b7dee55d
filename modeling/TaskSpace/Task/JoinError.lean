import TaskSpace.Identifier
import TaskSpace.Panic
import TaskSpace.Text.Quoted

/-!
Why joining a task gives no value, and the two texts that say so.
-/
namespace TaskSpace

/-- A task gives no value because it never ran, or because its body panicked. -/
inductive JoinCause where
  | cancelled
  | panicked (payload : Payload)
deriving DecidableEq, Repr

structure JoinError where
  task : TaskId
  cause : JoinCause
deriving DecidableEq, Repr

namespace JoinError

def cancelled (task : TaskId) : JoinError := ⟨task, .cancelled⟩

def panicked (task : TaskId) (payload : Payload) : JoinError := ⟨task, .panicked payload⟩

def isCancelled (e : JoinError) : Bool := e.cause = .cancelled

def isPanic (e : JoinError) : Bool := !e.isCancelled

/-- The payload of the panic, given up with the error. -/
def payload? (e : JoinError) : Option Payload :=
  match e.cause with
  | .cancelled => none
  | .panicked payload => some payload

def message (e : JoinError) : String :=
  let task := "task " ++ toString e.task
  match e.cause with
  | .cancelled => task ++ " was cancelled"
  | .panicked payload =>
    match payload.text? with
    | some text => task ++ " panicked with message " ++ Text.quote text
    | none => task ++ " panicked"

/-- The text of an error inside a description: its kind and its fields. -/
def describe (e : JoinError) : String :=
  let id := "Id(" ++ toString e.task ++ ")"
  match e.cause with
  | .cancelled => "JoinError::Cancelled(" ++ id ++ ")"
  | .panicked payload =>
    match payload.text? with
    | some text => "JoinError::Panic(" ++ id ++ ", " ++ Text.quote text ++ ", ...)"
    | none => "JoinError::Panic(" ++ id ++ ", ...)"

end JoinError

end TaskSpace

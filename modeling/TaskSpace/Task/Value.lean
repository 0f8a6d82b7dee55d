import TaskSpace.Identifier

/-!
The values that task bodies return.
-/
namespace TaskSpace

/-- A value of a task program: nothing, a truth value, a number, a text, structured data that is only
passed on and so kept as it is written, or the holder that a body ran with. -/
inductive Value where
  | none
  | flag (b : Bool)
  | number (n : Int)
  | text (s : String)
  | data (written : String)
  | holder (id : HolderId) (owner : Option TaskId) (registeredOn : Option WorkerId)
deriving DecidableEq, Repr, Inhabited

/-- The number that a value is, if it is one. -/
def Value.number? : Value → Option Int
  | number n => some n
  | _ => Option.none

end TaskSpace

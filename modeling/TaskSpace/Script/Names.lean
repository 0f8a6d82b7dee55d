import TaskSpace.Memory.Pointer

/-!
Names and what they stand for.
-/
namespace TaskSpace

/-- Each name stands for at most one thing, the one bound last. -/
abbrev Names (α : Type) := List (String × α)

namespace Names

variable {α : Type}

def find? (names : Names α) (name : String) : Option α := names.lookup name

def remove (names : Names α) (name : String) : Names α := names.filter fun entry => entry.1 ≠ name

def bind (names : Names α) (name : String) (a : α) : Names α := (name, a) :: names.remove name

def contains (names : Names α) (name : String) : Bool := (names.find? name).isSome

/-- Binds `name.0`, `name.1` and so on. -/
def bindAll (names : Names α) (name : String) (as : List α) : Names α :=
  as.zipIdx.foldl (fun names (a, i) => names.bind (name ++ "." ++ toString i) a) names

theorem find?_bind_self (names : Names α) (name : String) (a : α) :
    (names.bind name a).find? name = some a := by
  simp [find?, bind]

end Names

/-- A pointer as a script writes it: an address, or an offset from a named allocation. -/
inductive Place where
  | address (addr : Nat)
  | named (name : String) (offset : Nat)
deriving DecidableEq, Repr

/-- A name without an allocation stands for the null pointer. -/
def Place.resolve (pointers : Names Pointer) : Place → Pointer
  | address addr => ⟨addr⟩
  | named name offset => ((pointers.find? name).getD .null).wrappingAdd offset

end TaskSpace

import TaskSpace.Memory.Access
import TaskSpace.Memory.Pointer
import TaskSpace.Panic

/-!
Why an access to global memory fails, and the text that says so.
-/
namespace TaskSpace

inductive AccessError where
  | noTaskContext
  | nullPointer
  | zeroSized
  | unknownSegment (ptr : Pointer)
  | outOfBounds (ptr : Pointer) (len : Nat)
  | invalidFlags (access : Access)
  | readOnly (ptr : Pointer)
  | unlocalized (ptr : Pointer)
  | segmentInUse (base : Pointer) (live : Nat)
deriving DecidableEq, Repr

def AccessError.message : AccessError → String
  | noTaskContext => "GAS access outside of a running task"
  | nullPointer => "null global pointer"
  | zeroSized => "zero-sized allocation or access"
  | unknownSegment ptr => "no segment contains address " ++ ptr.toHex
  | outOfBounds ptr len => "access [" ++ ptr.toHex ++ ", +" ++ toString len ++ ") is out of bounds"
  | invalidFlags access =>
    "invalid access flags " ++ access.describe ++ ": exactly one of RO, RWE, RWS is required"
  | readOnly ptr => "write through read-only mapping of " ++ ptr.toHex
  | unlocalized ptr => "mapping of " ++ ptr.toHex ++ " was unlocalized"
  | segmentInUse base live =>
    "segment " ++ base.toHex ++ " still has " ++ toString live ++ " live mapping(s)"

/-- An operation ends early because it is refused, or because it panics. -/
inductive Fault where
  | refused (error : AccessError)
  | panicked (payload : Payload)
deriving DecidableEq, Repr

namespace Fault

/-- The sum of two words, or the panic of its overflow. -/
def sum (a b : Nat) : Except Fault Nat :=
  match Word.add? a b with
  | some c => .ok c
  | none => .error (panicked .addOverflow)

/-- The product of two words, or the panic of its overflow. -/
def product (a b : Nat) : Except Fault Nat :=
  match Word.mul? a b with
  | some c => .ok c
  | none => .error (panicked .mulOverflow)

theorem sum_eq_ok {a b c : Nat} : sum a b = .ok c ↔ a + b < Word.bound ∧ a + b = c := by
  unfold sum
  rw [← Word.add?_eq_some]
  cases Word.add? a b <;> simp

theorem product_eq_ok {a b c : Nat} : product a b = .ok c ↔ a * b < Word.bound ∧ a * b = c := by
  unfold product
  rw [← Word.mul?_eq_some]
  cases Word.mul? a b <;> simp

end Fault

/-- A valid set of flags, or the refusal of an invalid one. -/
def Access.validate (a : Access) : Except AccessError Access :=
  if a.isValid then .ok a else .error (.invalidFlags a)

end TaskSpace

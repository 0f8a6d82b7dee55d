import TaskSpace.Word

/-!
Pointers into global memory, and ranges of it.
-/
namespace TaskSpace

/-- An address in global memory. Address `0` is the null pointer. -/
structure Pointer where
  addr : Nat
deriving DecidableEq, Repr, Inhabited

namespace Pointer

def null : Pointer := ⟨0⟩

def isNull (p : Pointer) : Bool := p.addr = 0

/-- The pointer `n` bytes above, going round at the end of the address space. -/
def wrappingAdd (p : Pointer) (n : Nat) : Pointer := ⟨Word.wrap (p.addr + n)⟩

def add? (p : Pointer) (n : Nat) : Option Pointer := (Word.add? p.addr n).map Pointer.mk

/-- The distance from `origin` up to `p`, if `origin` is not above. -/
def offsetFrom (p origin : Pointer) : Option Nat :=
  if origin.addr ≤ p.addr then some (p.addr - origin.addr) else none

def toHex (p : Pointer) : String := "0x" ++ String.ofList (Nat.toDigits 16 p.addr)

def describe (p : Pointer) : String := "GlobalPtr(" ++ toString p.addr ++ ")"

def compare (p q : Pointer) : Ordering := Ord.compare p.addr q.addr

theorem offsetFrom_eq_some {p origin : Pointer} {n : Nat} :
    p.offsetFrom origin = some n ↔ p.addr = origin.addr + n := by
  unfold offsetFrom; split <;> simp <;> omega

end Pointer

structure Range where
  start : Pointer
  len : Nat
deriving DecidableEq, Repr

/-- `rows` ranges of `rowLen` bytes, each `stride` bytes after the one before. -/
def Range.strided (start : Pointer) (stride rows rowLen : Nat) : List Range :=
  (List.range rows).map fun row => ⟨start.wrappingAdd (Word.wrap (stride * row)), rowLen⟩

end TaskSpace

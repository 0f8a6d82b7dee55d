import TaskSpace.Identifier
import TaskSpace.Memory.Bytes

/-!
A segment: a stretch of global memory cut into blocks, each with a home worker.
-/
namespace TaskSpace

structure Segment where
  base : Pointer
  size : Nat
  blockSize : Nat
  homes : List WorkerId
  bytes : Bytes
deriving DecidableEq, Repr

namespace Segment

/-- Blocks are dealt to the homes in turn, and the bytes are zero. -/
def fresh (base : Pointer) (size blockSize numHomes : Nat) : Segment :=
  { base, size, blockSize
    homes := (List.range (Word.divUp size blockSize)).map (· % numHomes)
    bytes := Bytes.zeros size }

def stop (s : Segment) : Except Fault Nat := Fault.sum s.base.addr s.size

/-- The offset of `ptr`, if `len` bytes from there on stay inside. -/
def offset (s : Segment) (ptr : Pointer) (len : Nat) : Except Fault Nat :=
  match ptr.offsetFrom s.base with
  | none => .error (.refused (.outOfBounds ptr len))
  | some off =>
    match Word.add? off len with
    | none => .error (.refused (.outOfBounds ptr len))
    | some stop =>
      if stop ≤ s.size then .ok off else .error (.refused (.outOfBounds ptr len))

def blockOf (s : Segment) (off : Nat) : Nat := off / s.blockSize

/-- The offsets between which the blocks `first` to `last` lie, clipped at the end. -/
def blockRange (s : Segment) (first last : Nat) : Except Fault (Nat × Nat) := do
  let start ← Fault.product first s.blockSize
  let after ← Fault.sum last 1
  let stop ← Fault.product after s.blockSize
  return (start, min stop s.size)

def load (s : Segment) (first last : Nat) : Except Fault Bytes := do
  let (start, stop) ← s.blockRange first last
  s.bytes.slice start stop

def noSuchBlock (len block : Nat) : Fault :=
  .panicked (.built ("index out of bounds: the len is " ++ toString len ++ " but the index is "
    ++ toString block))

def migrate (s : Segment) (first last : Nat) (home : WorkerId) : Except Fault Segment :=
  if last < s.homes.length then
    .ok { s with homes := s.homes.mapIdx fun block old =>
      if first ≤ block ∧ block ≤ last then home else old }
  else .error (noSuchBlock s.homes.length last)

def homeAt (s : Segment) (off : Nat) : Except Fault WorkerId :=
  match s.homes[s.blockOf off]? with
  | some home => .ok home
  | none => .error (noSuchBlock s.homes.length (s.blockOf off))

theorem offset_eq_ok {s : Segment} {ptr : Pointer} {len off : Nat} :
    s.offset ptr len = .ok off ↔
      ptr.addr = s.base.addr + off ∧ off + len < Word.bound ∧ off + len ≤ s.size := by
  unfold offset
  cases h : ptr.offsetFrom s.base with
  | none =>
    simp only [reduceCtorEq, false_iff, not_and]
    intro he
    rw [Pointer.offsetFrom_eq_some.2 he] at h
    cases h
  | some n =>
    have hn := Pointer.offsetFrom_eq_some.1 h
    simp only [Word.add?]
    split <;> rename_i hb
    · split at hb <;> simp at hb
      simp; omega
    · split at hb <;> simp at hb
      subst hb
      split <;> simp <;> omega

end Segment

end TaskSpace

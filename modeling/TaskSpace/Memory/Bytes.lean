import TaskSpace.Memory.Error

/-!
Runs of bytes: checked slices, checked writes, and the updates of a run that keep its length.
-/
namespace TaskSpace

abbrev Bytes := List UInt8

namespace Bytes

def zeros (n : Nat) : Bytes := List.replicate n 0

def outOfRange (stop len : Nat) : Fault :=
  .panicked (.built ("range end index " ++ toString stop ++ " out of range for slice of length "
    ++ toString len))

/-- The bytes from `start` up to `stop`; a range that is not inside the run panics. -/
def slice (b : Bytes) (start stop : Nat) : Except Fault Bytes :=
  if start ≤ stop ∧ stop ≤ b.length then .ok ((b.take stop).drop start)
  else .error (outOfRange stop b.length)

/-- The run with `new` written from `start` on; what would pass the end panics. -/
def splice (b : Bytes) (start : Nat) (new : Bytes) : Except Fault Bytes :=
  if start + new.length ≤ b.length then
    .ok (b.take start ++ new ++ b.drop (start + new.length))
  else .error (outOfRange (start + new.length) b.length)

/-- The number that a run spells, least byte first. -/
def toNat (b : Bytes) : Nat := b.foldr (fun byte n => byte.toNat + 256 * n) 0

/-- The `len` low bytes of a number, least byte first. -/
def ofNat : (len : Nat) → Nat → Bytes
  | 0, _ => []
  | len + 1, n => UInt8.ofNat (n % 256) :: ofNat len (n / 256)

theorem slice_eq_ok {b c : Bytes} {start stop : Nat} :
    b.slice start stop = .ok c ↔
      (start ≤ stop ∧ stop ≤ b.length) ∧ (b.take stop).drop start = c := by
  unfold slice
  split
  · next h => simp [h]
  · next h => simp [h]

theorem splice_eq_ok {b c new : Bytes} {start : Nat} :
    b.splice start new = .ok c ↔
      start + new.length ≤ b.length ∧
        b.take start ++ new ++ b.drop (start + new.length) = c := by
  unfold splice
  split
  · next h => simp [h]
  · next h => simp [h]

theorem length_slice {b c : Bytes} {start stop : Nat} (h : b.slice start stop = .ok c) :
    c.length = stop - start := by
  obtain ⟨⟨hs, ht⟩, rfl⟩ := slice_eq_ok.1 h
  simp; omega

theorem length_splice {b c new : Bytes} {start : Nat} (h : b.splice start new = .ok c) :
    c.length = b.length := by
  obtain ⟨hs, rfl⟩ := splice_eq_ok.1 h
  simp; omega

@[simp] theorem length_ofNat (len n : Nat) : (ofNat len n).length = len := by
  induction len generalizing n with
  | zero => rfl
  | succ len ih => simp [ofNat, ih]

end Bytes

/-- A change of a run of bytes in place: its length stays. -/
structure Update where
  run : Bytes → Bytes
  length_run : ∀ b, (run b).length = b.length

namespace Update

def keep : Update := ⟨id, fun _ => rfl⟩

def reverse : Update := ⟨List.reverse, fun _ => List.length_reverse⟩

/-- Adds to the run as a number, going round at its width. -/
def add (n : Nat) : Update := ⟨fun b => Bytes.ofNat b.length (b.toNat + n), fun _ => by simp⟩

def xor (mask : UInt8) : Update := ⟨List.map (· ^^^ mask), fun _ => List.length_map _⟩

end Update

end TaskSpace

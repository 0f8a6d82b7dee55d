import TaskSpace.Identifier

/-!
The slots of a runtime: one for each worker, filled when its thread registers.
-/
namespace TaskSpace

/-- What a registered worker keeps in its slot: its storage, and the sign to wake up. -/
structure Slot where
  storage : StorageId
  wake : Bool
deriving DecidableEq, Repr

inductive SlotError where
  | noSlot (worker : WorkerId)
  | workerTaken (worker : WorkerId)
  | threadTaken (thread : ThreadId)
deriving DecidableEq, Repr

def SlotError.message : SlotError → String
  | noSlot worker => "Worker " ++ toString worker ++ " has no slot"
  | workerTaken worker => "Worker " ++ toString worker ++ " already registered"
  | threadTaken thread => "ThreadId #" ++ toString thread ++ " already registered"

/-- Threads are mapped to the worker of their last registration that found the slot empty. -/
structure Slots where
  slots : List (Option Slot)
  mapping : List (ThreadId × WorkerId)
deriving DecidableEq, Repr

namespace Slots

def empty (workers : Nat) : Slots := { slots := List.replicate workers none, mapping := [] }

def len (s : Slots) : Nat := s.slots.length

def worker? (s : Slots) (thread : ThreadId) : Option WorkerId := s.mapping.lookup thread

def slot? (s : Slots) (worker : WorkerId) : Option Slot := (s.slots[worker]?).join

def data? (s : Slots) (thread : ThreadId) : Option Slot := (s.worker? thread).bind s.slot?

/-- Registers the storage of a worker from its thread. A thread that was mapped before is refused,
but it is mapped to the new worker from then on. -/
def register (s : Slots) (thread : ThreadId) (worker : WorkerId) (storage : StorageId) :
    Except SlotError Unit × Slots :=
  match s.slots[worker]? with
  | none => (.error (.noSlot worker), s)
  | some (some _) => (.error (.workerTaken worker), s)
  | some none =>
    let mapped := { s with
      mapping := (thread, worker) :: s.mapping.filter fun entry => entry.1 ≠ thread }
    if (s.worker? thread).isSome then (.error (.threadTaken thread), mapped)
    else (.ok (), { mapped with slots := s.slots.set worker (some ⟨storage, false⟩) })

/-- The storages registered, by worker. -/
def storages (s : Slots) : List StorageId := s.slots.filterMap (·.map Slot.storage)

/-- Sets the sign of the worker that a thread is mapped to, if there is one. -/
def setWake (s : Slots) (thread : ThreadId) (wake : Bool) : Option Slots := do
  let worker ← s.worker? thread
  let slot ← s.slot? worker
  return { s with slots := s.slots.set worker (some { slot with wake }) }

end Slots

end TaskSpace

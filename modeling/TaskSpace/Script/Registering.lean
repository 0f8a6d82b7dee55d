import TaskSpace.Registry.Roster
import TaskSpace.Scheduler.Slots

/-!
Scripts on the slots of a runtime: threads register fresh storages, and look up what is registered.
-/
namespace TaskSpace.Registering

inductive Step where
  | register (thread : ThreadId) (worker : WorkerId)
  | lookup (thread : ThreadId)
  | storage (worker : WorkerId)
  | storages
  | len
deriving DecidableEq, Repr

inductive Result where
  | done
  | refused (error : SlotError)
  | noSlot
  | worker (id : Option WorkerId)
  | workers (ids : List WorkerId)
  | count (n : Nat)
deriving DecidableEq, Repr

structure State where
  slots : Slots
  roster : Roster

namespace State

def start (workers : Nat) : State := ⟨.empty workers, .empty⟩

def workerOf (s : State) (storage : StorageId) : Option WorkerId :=
  (s.roster.storages[storage]?).map Storage.worker

def take (s : State) : Step → Result × State
  | .register thread worker =>
    let (storage, roster) := s.roster.addStorage worker 0
    match s.slots.register thread worker storage with
    | (.ok _, slots) => (.done, ⟨slots, roster⟩)
    | (.error error, slots) => (.refused error, ⟨slots, roster⟩)
  | .lookup thread =>
    match s.slots.data? thread with
    | some slot => (.worker (s.workerOf slot.storage), s)
    | none => (.noSlot, s)
  | .storage worker =>
    (.worker ((s.slots.slot? worker).bind fun slot => s.workerOf slot.storage), s)
  | .storages => (.workers (s.slots.storages.filterMap s.workerOf), s)
  | .len => (.count s.slots.len, s)

end State

def run (s : State) : List Step → List Result
  | [] => []
  | step :: rest =>
    let (result, s) := s.take step
    result :: run s rest

end TaskSpace.Registering

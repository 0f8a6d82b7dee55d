import TaskSpace.Scheduler.Slots

/-!
Parking: threads without work join a list, and are woken from its end. Each function is one section
under the lock of the list.
-/
namespace TaskSpace

/-- The parked threads, the one parked last first, and the slots with their signs. -/
structure Lot where
  parked : List ThreadId
  slots : Slots
deriving DecidableEq, Repr

namespace Lot

def empty (workers : Nat) : Lot := { parked := [], slots := .empty workers }

/-- Parks a thread: its sign is cleared, and it joins the list. The answer is `none` if the thread
has no slot. -/
def park (l : Lot) (thread : ThreadId) : Option Lot := do
  let slots ← l.slots.setWake thread false
  return { parked := thread :: l.parked, slots }

/-- Wakes the thread parked last, if there is one. -/
def unparkOne (l : Lot) : Option Lot :=
  match l.parked with
  | [] => some l
  | thread :: parked => do
    let slots ← l.slots.setWake thread true
    return { parked, slots }

def wakeAll (slots : Slots) : List ThreadId → Option Slots
  | [] => some slots
  | thread :: rest => do wakeAll (← slots.setWake thread true) rest

def unparkAll (l : Lot) : Option Lot := do
  return { parked := [], slots := ← wakeAll l.slots l.parked }

def signalled (l : Lot) (thread : ThreadId) : Bool :=
  ((l.slots.data? thread).map Slot.wake).getD false

end Lot

end TaskSpace

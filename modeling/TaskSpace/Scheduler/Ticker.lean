/-!
The ticker of an event loop: a counter of passes that goes round at 32 bits, and what each pass
calls for.
-/
namespace TaskSpace

inductive TickEvent where
  | none
  /-- The next search looks at the injector first. -/
  | popInjector
  | shutdown
deriving DecidableEq, Repr

structure Ticker where
  tick : UInt32
deriving DecidableEq, Repr, Inhabited

namespace Ticker

def start : Ticker := ⟨0⟩

/-- Every `interval`-th tick calls for the injector, unless the runtime shuts down. -/
def event (tick interval : UInt32) (stopping : Bool) : TickEvent :=
  if stopping then .shutdown
  else if interval = 0 then (if tick = 0 then .popInjector else .none)
  else if tick % interval = 0 then .popInjector
  else .none

def next (t : Ticker) (interval : UInt32) (stopping : Bool) : TickEvent × Ticker :=
  let tick := t.tick + 1
  (event tick interval stopping, ⟨tick⟩)

end Ticker

end TaskSpace

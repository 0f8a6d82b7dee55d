import TaskSpace.Scheduler.Queues

/-!
How a worker outside its event loop searches for a task: among its own, and then in a few attempts at
the queues that it shares.
-/
namespace TaskSpace

/-- What a look at a shared queue comes back with. One that somebody disturbed is to be repeated. -/
inductive Steal (α : Type) where
  | success (found : α)
  | empty
  | retry

namespace Steal

variable {α : Type}

/-- A look that nobody disturbs. -/
def quiet : Option α → Steal α
  | some found => success found
  | none => empty

def isRetry : Steal α → Bool
  | retry => true
  | _ => false

def found? : Steal α → Option α
  | success found => some found
  | _ => none

/-- Looks elsewhere when the first look was of no use. -/
def orElse : Steal α → Steal α → Steal α
  | success found, _ => success found
  | empty, second => second
  | retry, success found => success found
  | retry, _ => retry

/-- Looks at one after the other up to the first success. -/
def collect : List (Steal α) → Steal α
  | [] => empty
  | look :: rest => look.orElse (collect rest)

end Steal

/-- A worker outside its event loop, one of `n`: how many attempts it makes at the shared queues, and in
which order it turns to the other workers. -/
structure Searcher (n : Nat) where
  worker : WorkerId
  known : worker < n
  retries : Nat
  positive : 0 < retries
  stealers : List WorkerId
  every : stealers.Perm ((List.range n).filter (· ≠ worker))

namespace Queues

variable {n : Nat}

/-- One attempt at the shared queues: the injector, then the other workers in turn. -/
def attempt (q : Queues) (s : Searcher n) (batch : Nat) : Steal (TaskId × Queues) :=
  (Steal.quiet (q.takeInjected s.worker batch)).orElse
    (Steal.collect (s.stealers.map fun v => .quiet (q.steal v)))

/-- The next task of a worker that is alone with the queues: its own, or what the first attempt that is
not to be repeated comes back with. -/
def search (q : Queues) (s : Searcher n) (batch : Nat) : Option (TaskId × Queues) :=
  q.takeLocal s.worker <|>
    ((List.replicate s.retries (q.attempt s batch)).find? (!·.isRetry)).bind Steal.found?

end Queues

end TaskSpace

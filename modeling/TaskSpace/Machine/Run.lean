import TaskSpace.Machine.Step

/-!
Running a machine: the first thread that can step does, and searches miss nothing.
-/
namespace TaskSpace.Machine

variable {σ : Type}

/-- The runtime and the worker for which a thread looks for tasks. -/
def searcher (th : Thread σ) : Option (RuntimeId × WorkerId) :=
  match th.frames, th.context with
  | .loop _ _ _ :: _, some c => some (c.runtime, c.worker)
  | .drain runtime _ _ :: _, _ => some (runtime, WorkerId.root)
  | _, _ => none

/-- What a search finds that nobody disturbs. -/
def undisturbed (m : Machine σ) (th : Thread σ) : Choice :=
  match (searcher th).bind fun (runtime, w) => (m.runtimes[runtime]?).map (·, w) with
  | none => { missForced := false, batch := 0, pick := .nothing }
  | some (rt, w) =>
    let batch := rt.queues.halfBatch
    { missForced := false, batch, pick := rt.queues.scan batch (rt.queues.others w) }

/-- The step of the first thread, of those given, that has one. -/
def firstStep (m : Machine σ) : (id : ThreadId) → List (Thread σ) → Option (Machine σ)
  | _, [] => none
  | id, th :: rest => m.step id (m.undisturbed th) <|> m.firstStep (id + 1) rest

def next (m : Machine σ) : Option (Machine σ) := m.firstStep 0 m.threads

/-- Runs until no thread can step, for at most `limit` steps. -/
def run : (limit : Nat) → Machine σ → Machine σ
  | 0, m => m
  | limit + 1, m =>
    match m.next with
    | none => m
    | some m => run limit m

end TaskSpace.Machine

import TaskSpace.Scheduler.Bench
import TaskSpace.Scheduler.Settings

/-!
Scripts on the queues of one worker that is not running its event loop.
-/
namespace TaskSpace.Queueing

/-- A task that writes down its name when it runs. -/
structure Job where
  name : String
  panics : Bool
deriving DecidableEq, Repr

inductive Step where
  | inject (job : Job)
  | addOther (other : Nat) (job : Job)
  | add (sticky : Bool) (job : Job)
  | find
  | runNext
  | dropHeld
  | drain
deriving DecidableEq, Repr

/-- What running a job comes to. -/
def Job.result (job : Job) : Except Payload Value :=
  if job.panics then .error (.built job.name) else .ok .none

structure State where
  bench : Bench Job
  ran : List String

inductive Result where
  | done
  | task (name : Option String)
  | count (n : Nat)
deriving DecidableEq, Repr

structure Report where
  result : Result
  ran : List String
deriving DecidableEq, Repr

/-- The worker has the first lane; the others follow. -/
def searcher (others : Nat) : Searcher (others + 1) where
  worker := 0
  known := Nat.succ_pos others
  retries := (Settings.new .stealing).retries
  positive := by decide
  stealers := (List.range (others + 1)).filter (· ≠ 0)
  every := .refl _

namespace State

variable {n : Nat}

def start (others : Nat) : State :=
  { bench := .start (others + 1) [Recorder.new 2] 1 0, ran := [] }

/-- Does something on the bench, if it is possible. -/
def act (st : State) (s : Searcher n) (act : Bench.Act Job) : State :=
  { st with bench := (st.bench.step s act).getD st.bench }

/-- How many tasks move along with an injected one. -/
def batch (st : State) : Nat := st.bench.queues.halfBatch

/-- The task that a search finds. -/
def found (st : State) (s : Searcher n) : Option TaskId := (st.bench.search s st.batch).map Prod.fst

/-- Does something that runs a task, whose job, unless it is gone, then does what it does. -/
def runTask (st : State) (s : Searcher n) (task : TaskId) (act : Bench.Act Job) : State :=
  match (st.bench.cell? task).bind Cell.body with
  | none => st.act s act
  | some job =>
    let st := (st.act s act).act s (.finish job.result)
    { st with ran := st.ran ++ [job.name] }

def queued (q : Queues) : Nat :=
  q.injector.length + Word.total (q.lanes.map fun lane => lane.pinned.length + lane.own.length)

/-- Goes on with a drain until no task is found, or after `limit` of them. -/
def drain (s : Searcher n) : (limit : Nat) → State → State
  | 0, st => st
  | limit + 1, st =>
    match st.found s with
    | none => st
    | some task => drain s limit (st.runTask s task (.next st.batch))

def nameOf (names : List String) (id : TaskId) : Option String :=
  match id with
  | 0 => none
  | place + 1 => names[place]?

/-- Takes one step. `names` are those of the tasks made, this step included. -/
def take (st : State) (s : Searcher n) (names : List String) : Step → Result × State
  | .inject job => (.done, st.act s (.spawn false .injector job))
  | .addOther other job => (.done, st.act s (.spawn false (.other (other + 1)) job))
  | .add sticky job => (.done, st.act s (.spawn sticky .worker job))
  | .find => (.task ((st.found s).bind (nameOf names)), st.act s (.find st.batch))
  | .runNext =>
    match st.found s with
    | none => (.task none, st)
    | some task =>
      (.task (nameOf names task), (st.act s (.find st.batch)).runTask s task (.run task))
  | .dropHeld =>
    let held := st.bench.held
    (.count held.length, held.foldl (fun st task => st.act s (.drop task)) st)
  | .drain =>
    let st := drain s (queued st.bench.queues) (st.act s .drain)
    (.count (st.bench.draining.getD 0), st.act s (.next st.batch))

end State

def Step.made : Step → Option String
  | inject job | addOther _ job | add _ job => some job.name
  | find | runNext | dropHeld | drain => none

/-- Takes steps; each reports its result and the names that ran during it. -/
def run {n : Nat} (s : Searcher n) (names : List String) (st : State) :
    List Step → List Report × List String × State
  | [] => ([], names, st)
  | step :: rest =>
    let names := names ++ step.made.toList
    let (result, st) := { st with ran := [] }.take s names step
    let (reports, names, final) := run s names st rest
    (⟨result, st.ran⟩ :: reports, names, final)

/-- What a script reports: its steps, the state of every task, and the counters of the storage. -/
structure Summary where
  reports : List Report
  states : List (String × TaskState)
  counters : Counters
deriving DecidableEq, Repr

def summarize (others : Nat) (steps : List Step) : Summary :=
  let (reports, names, st) := run (searcher others) [] (.start others) steps
  { reports
    states := names.zip (st.bench.tasks.map Cell.state)
    counters := ((st.bench.ledger.roster.storages[Bench.storage]?).map Storage.counters).getD
      ⟨0, 0, 0⟩ }

end TaskSpace.Queueing

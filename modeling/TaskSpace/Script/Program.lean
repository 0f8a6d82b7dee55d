import TaskSpace.Machine.Run
import TaskSpace.Script.Statement

/-!
Task programs: statements in the bodies of tasks, phases that build, use and shut down a runtime,
and the report of a run.
-/
namespace TaskSpace

/-- A part of a sum that a body returns: a number, or a variable that counts `0` when it is unset. -/
inductive Summand where
  | number (n : Int)
  | var (name : String)
deriving DecidableEq, Repr

inductive Returned where
  | value (v : Value)
  | sum (terms : List Summand)
deriving DecidableEq, Repr

/-- Statements in order, up to the end of the body. -/
inductive Script where
  | stop
  | act (action : Action) (next : Script)
  /-- Spawns a task with a body of its own; `direct` spawns it on the runtime of the program. -/
  | spawn (name : String) (direct : Bool) (options : SpawnOptions) (body next : Script)
  | give (returned : Returned)
  | panic (payload : Payload)

def Summand.eval (vars : Names Int) : Summand → Int
  | number n => n
  | var name => (vars.find? name).getD 0

def Returned.eval (vars : Names Int) : Returned → Value
  | value v => v
  | sum terms => .number ((terms.map (Summand.eval vars)).foldr (· + ·) 0)

namespace Script

open BoardBody

/-- The body that takes the statements. A spawned task starts with the variables of its spawner. -/
def body (scope : Scope) : Script → BoardBody
  | stop => .finish .none
  | give returned => .finish (returned.eval scope.vars)
  | panic payload => .panic payload
  | act action next =>
    scope.taskAction (fun answer scope => log scope.label answer (next.body scope)) action
  | spawn name direct options child next =>
    let go (answer : Answer) := log scope.label answer (next.body scope)
    let task := log name (.text "start") (child.body { scope with label := name })
    let start (target : Option RuntimeId) : BoardBody :=
      .spawn target options task fun
        | .error payload => go (.failed (.panicked payload))
        | .ok id =>
          change (·.bindTask name id) <| go <| match scope.flavor with
            | .localOnly => .task id
            | .stealing => .done
    if direct then
      look fun b =>
        match b.runtime with
        | none => go .noRuntime
        | some runtime => start (some runtime)
    else start none

end Script

inductive Phase where
  | root (script : Script)
  /-- Statements on the thread that builds the runtimes, in no task. -/
  | outside (script : Script)
  | foreign (script : Script)
  | shutdown
  | start

structure Program where
  flavor : Flavor
  calls : List Setting
  /-- The homes of one space for all runtimes, whose mappings are recorded. -/
  recorded : Option Nat
  phases : List Phase

namespace Program

open BoardBody

/-- The space that all runtimes of a program share, if it has one. -/
def space (p : Program) : Option SpaceId := p.recorded.map fun _ => 0

def dropRuntime (runtime : Option RuntimeId) (next : BoardBody) : BoardBody :=
  match runtime with
  | none => next
  | some runtime => .shutdown runtime next

/-- Builds the runtime of the program. One that is still up is dropped after that. -/
def build (p : Program) (next : BoardBody) : BoardBody :=
  let replace (runtime : Option RuntimeId) (next : BoardBody) : BoardBody :=
    .share (fun b => { b with runtime, built := b.built ++ runtime.toList }) fun b =>
      dropRuntime b.runtime next
  match (Settings.new p.flavor).setAll p.calls with
  | .error payload => log "start" (.failed (.panicked payload)) (replace none next)
  | .ok settings =>
    .build settings p.space fun
      | .error (.config (.panicked payload)) =>
        log "start" (.failed (.panicked payload)) (replace none next)
      | .error error => log "start" (.buildFailed error.message) (replace none next)
      | .ok runtime =>
        .call (.runtime runtime) fun view =>
          log "start" (.workers ((view.map RuntimeView.workers).getD 0))
            (replace (some runtime) next)

def shutdown (next : BoardBody) : BoardBody :=
  .share (fun b => { b with runtime := none }) fun b => dropRuntime b.runtime next

def phase (p : Program) (next : BoardBody) : Phase → BoardBody
  | .root script =>
    look fun b =>
      match b.runtime with
      | none => log "root" .noRuntime next
      | some runtime =>
        .blockOn runtime (script.body ⟨p.flavor, "root", []⟩) fun result =>
          log "block_on" (.returned result) next
  | .outside script =>
    (script.body ⟨p.flavor, "outside", []⟩).andThen fun result =>
      log "outside" (.returned result) next
  | .foreign script => .onThread (script.body ⟨p.flavor, "foreign", []⟩) fun _ => next
  | .shutdown => shutdown (log "shutdown" .done next)
  | .start => p.build next

def phasesBody (p : Program) : List Phase → BoardBody
  | [] => shutdown (log "end" .done (.finish .none))
  | first :: rest => p.phase (phasesBody p rest) first

def body (p : Program) : BoardBody := p.build (p.phasesBody p.phases)

/-! ## How long a run may be -/

def poolThreads (calls : List Setting) : Nat :=
  Word.total (calls.map fun
    | .workerThreads n => n
    | _ => 0)

/-- More steps than one statement takes. -/
def actionLimit : Action → Nat
  | .fib n => 1 <<< n
  | .build _ calls => 8 + poolThreads calls
  | _ => 1

def scriptLimit : Script → Nat
  | .stop | .give _ | .panic _ => 1
  | .act action next => actionLimit action + scriptLimit next
  | .spawn _ _ _ body next => 1 + scriptLimit body + scriptLimit next

def phaseLimit (calls : List Setting) : Phase → Nat
  | .root script | .outside script | .foreign script => 1 + scriptLimit script
  | .shutdown => 1
  | .start => 8 + poolThreads calls

/-- More steps than a run of the program takes. -/
def limit (p : Program) : Nat :=
  256 * (32 + poolThreads p.calls + Word.total (p.phases.map (phaseLimit p.calls)))

/-! ## The report -/

/-- What a run leaves: the log, the storages of every runtime in order, the live mappings of every
runtime's space, and the records of the shared space. -/
structure Report where
  log : List (String × Answer)
  storages : List Storage
  live : List Nat
  recorder : Option Recorder

/-- The pool of a runtime on a machine whose parallelism no answer shows. -/
def parallelism : Nat := 4

def final (p : Program) : Machine Board :=
  (Machine.start parallelism (p.recorded.map Recorder.new).toList Board.empty p.body).run p.limit

def run (p : Program) : Report :=
  let m := p.final
  let built := m.shared.built.filterMap fun id => m.runtimes[id]?
  { log := m.shared.log.reverse
    storages := built.flatMap fun rt => rt.storages.filterMap fun id => m.ledger.roster.storages[id]?
    live := built.filterMap fun rt =>
      (m.ledger.spaces[rt.space]?).map AddressSpace.liveMappings
    recorder := (p.space).bind fun id => m.ledger.spaces[id]? }

namespace Report

def counters (r : Report) : Counters :=
  r.storages.foldl (fun sum s =>
    { registered := sum.registered + s.counters.registered
      deregistered := sum.deregistered + s.counters.deregistered
      unlocalized := sum.unlocalized + s.counters.unlocalized }) ⟨0, 0, 0⟩

/-- The labels of the log, each once, in the order they first appear. -/
def labels (r : Report) : List String := (r.log.map Prod.fst).eraseDups

def answersOf (r : Report) (label : String) : List Answer :=
  (r.log.filter fun entry => entry.1 = label).map Prod.snd

end Report

end Program

end TaskSpace

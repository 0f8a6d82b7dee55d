import TaskSpace.Script.Board
import TaskSpace.Task.Arguments

/-!
The statements of task programs, as bodies of tasks.
-/
namespace TaskSpace

/-- Statements that hold no other statements. -/
inductive Action where
  | set (var : String) (value : Int)
  | var (var : String)
  | join (task : String) (into : Option String)
  | await (task : String) (into : Option String)
  | state (task : String)
  | describe (task : String)
  | drop (task : String)
  | waitFor (task : String)
  | currentTask
  | tryCurrentTask
  | worker
  | holder
  | holderLen
  | storage
  | depth
  | runtime (worker : WorkerId)
  | stickyCheck
  | fib (n : Nat)
  | apply (args : List Nat)
  | build (flavor : Flavor) (calls : List Setting)
  | alloc (name : String) (size blockSize : Nat)
  | dealloc (ptr : Place)
  | put (ptr : Place) (bytes : Bytes)
  | get (ptr : Place) (len : Nat)
  | fill (ptr : Place) (value : UInt8) (len : Nat)
  | rmw (ptr : Place) (len : Nat) (update : Update) (quiet : Bool)
  | homeOf (ptr : Place)
  | localize (name : String) (ptr : Place) (len : Nat) (access : Access)
  | localizeAll (name : String) (ranges : List (Place × Nat)) (access : Access)
  | localizeRows (name : String) (ptr : Place) (stride rows rowLen : Nat) (access : Access)
  | read (ref : String)
  | write (ref : String) (off : Nat) (bytes : Bytes)
  | localRef (ref : String)
  | commit (ref : String)
  | commitAll (refs : List String)
  | unlocalize

/-- Where a statement stands: the flavor of the program, the label that it logs under, and the
variables of its body. -/
structure Scope where
  flavor : Flavor
  label : String
  vars : Names Int

abbrev BoardBody : Type := Body Board

namespace BoardBody

def log (label : String) (answer : Answer) (next : BoardBody) : BoardBody :=
  .share (·.write label answer) fun _ => next

def look (next : Board → BoardBody) : BoardBody := .share id next

def change (f : Board → Board) (next : BoardBody) : BoardBody := .share f fun _ => next

/-- Goes on with what an operation gives or is refused for. If it panics, so does the body. -/
def unwinding {α : Type} (next : Except Fault α → BoardBody) : Except Fault α → BoardBody
  | .ok a => next (.ok a)
  | .error (.refused error) => next (.error (.refused error))
  | .error (.panicked payload) => .panic payload

def memory (op : MemoryOp) (next : op.Reply → BoardBody) : BoardBody :=
  .call (.memory op) (unwinding next)

def effect (op : MemoryOp) (h : op.Result = Unit) (next : Answer → BoardBody) : BoardBody :=
  memory op fun reply => next (.ofUnit (h ▸ reply))

def spawnAndJoin (options : SpawnOptions) (child : BoardBody)
    (next : Except Payload Outcome → BoardBody) : BoardBody :=
  .spawn none options child fun
    | .error payload => next (.error payload)
    | .ok task => .wait .join task fun outcome => next (.ok outcome)

def numberOf : Outcome → Int
  | .ok v => v.number?.getD 0
  | .error _ => 0

/-- A Fibonacci number: both numbers before it are the work of new tasks. -/
def fib : Nat → BoardBody
  | 0 => .finish (.number 0)
  | 1 => .finish (.number 1)
  | n + 2 =>
    .spawn none default (fib (n + 1)) fun
      | .error payload => .panic payload
      | .ok a =>
        .spawn none default (fib n) fun
          | .error payload => .panic payload
          | .ok b =>
            .wait .join a fun x => .wait .join b fun y =>
              .finish (.number (numberOf x + numberOf y))

def whichWorker : BoardBody :=
  .call .currentWorker fun
    | some w => .finish (.number w)
    | none => .finish .none

end BoardBody

namespace Scope

def store (scope : Scope) (into : Option String) (outcome : Outcome) : Scope :=
  match into, outcome with
  | some name, .ok (.number n) => { scope with vars := scope.vars.bind name n }
  | _, _ => scope

/-- The statements go on with the scope, after an answer is logged. -/
abbrev Next : Type := Answer → Scope → BoardBody

open BoardBody

/-- Whether a wait can never end: nobody else runs the task, and this thread cannot. -/
def deadlocks (scope : Scope) (task : TaskId) (next : Bool → BoardBody) : BoardBody :=
  match scope.flavor with
  | .stealing => next false
  | .localOnly =>
    .call (.state task) fun state => .call .currentWorker fun worker =>
      next (state = some .running || state = some .created && worker.isNone)

/-- Takes the join handle behind a name, and joins it. -/
def join (scope : Scope) (name : String) (into : Option String) (next : Next) : BoardBody :=
  look fun b =>
    match b.task? name with
    | none => next .unknownName scope
    | some task =>
      scope.deadlocks task fun stuck =>
        if stuck then next .wouldDeadlock scope
        else
          .share (·.removeTask name) fun b =>
            match b.tasks.find? name with
            | none => next .unknownName scope
            | some named =>
              if named.awaits ≠ 0 then next .handleBusy scope
              else
                .wait .join named.task fun outcome =>
                  next (.joined outcome) (scope.store into outcome)

/-- Waits for a task, whose handle keeps its name. -/
def await (scope : Scope) (name : String) (into : Option String) (next : Next) : BoardBody :=
  look fun b =>
    match b.task? name with
    | none => next .unknownName scope
    | some task =>
      scope.deadlocks task fun stuck =>
        if stuck then next .wouldDeadlock scope
        else
          .share (·.countAwaits name task (· + 1)) fun b =>
            if b.task? name ≠ some task then next .unknownName scope
            else
              .wait .get task fun outcome =>
                change (·.countAwaits name task (· - 1)) <|
                  next (.awaited outcome) (scope.store into outcome)

def stateOf (scope : Scope) (name : String) (answer : TaskId → TaskState → Answer)
    (next : Next) : BoardBody :=
  look fun b =>
    match b.task? name with
    | none => next .unknownName scope
    | some task =>
      .call (.state task) fun
        | some state => next (answer task state) scope
        | none => next .unknownName scope

def localizeAll (scope : Scope) (name : String) (ranges : List Range) (access : Access)
    (next : Next) : BoardBody :=
  memory (.localizeAll ranges access) fun
    | .error fault => next (.failed fault) scope
    | .ok refs => change (·.bindRefs name refs) (next (.number refs.length) scope)

def withRef (scope : Scope) (name : String) (next : Next) (use : LocalRef → BoardBody) :
    BoardBody :=
  look fun b =>
    match b.refs.find? name with
    | none => next .unknownName scope
    | some ref => use ref

def withPointer (place : Place) (use : Pointer → BoardBody) : BoardBody :=
  look fun b => use (place.resolve b.pointers)

/-- Builds another runtime, and drops it. -/
def build (scope : Scope) (flavor : Flavor) (calls : List Setting) (next : Next) : BoardBody :=
  match (Settings.new flavor).setAll calls with
  | .error payload => next (.failed (.panicked payload)) scope
  | .ok settings =>
    .build settings none fun
      | .error (.config (.panicked payload)) => next (.failed (.panicked payload)) scope
      | .error error => next (.buildFailed error.message) scope
      | .ok runtime =>
        .call (.runtime runtime) fun view =>
          .shutdown runtime (next (.workers ((view.map RuntimeView.workers).getD 0)) scope)

def memoryAction (scope : Scope) (next : Next) : Action → Option BoardBody
  | .alloc name size blockSize =>
    some <| memory (.alloc size blockSize) fun
      | .error fault => next (.failed fault) scope
      | .ok ptr =>
        let answer := match scope.flavor with
          | .localOnly => .pointer ptr
          | .stealing => .done
        change (·.bindPointer name ptr) (next answer scope)
  | .dealloc ptr =>
    some <| withPointer ptr fun ptr => effect (.dealloc ptr) rfl (next · scope)
  | .put ptr bytes =>
    some <| withPointer ptr fun ptr => effect (.put ptr bytes) rfl (next · scope)
  | .get ptr len =>
    some <| withPointer ptr fun ptr => memory (.get ptr len) fun reply => next (.ofBytes reply) scope
  | .fill ptr value len =>
    some <| withPointer ptr fun ptr => effect (.fill ptr value len) rfl (next · scope)
  | .rmw ptr len update quiet =>
    some <| withPointer ptr fun ptr => memory (.rmw ptr len update) fun reply =>
      next (if quiet && reply.isOk then .done else .ofBytes reply) scope
  | .homeOf ptr =>
    some <| withPointer ptr fun ptr => memory (.homeOf ptr) fun reply => next (.home reply) scope
  | .localize name ptr len access =>
    some <| withPointer ptr fun ptr => memory (.localize ptr len access) fun
      | .error fault => next (.failed fault) scope
      | .ok ref => change (·.bindRef name ref) (next .done scope)
  | .localizeAll name ranges access =>
    some <| look fun b => scope.localizeAll name
      (ranges.map fun (ptr, len) => ⟨ptr.resolve b.pointers, len⟩) access next
  | .localizeRows name ptr stride rows rowLen access =>
    some <| withPointer ptr fun ptr =>
      scope.localizeAll name (Range.strided ptr stride rows rowLen) access next
  | .read name =>
    some <| scope.withRef name next fun ref =>
      .call (.read ref) (unwinding fun reply => next (.ofBytes reply) scope)
  | .write name off bytes =>
    some <| scope.withRef name next fun ref =>
      .call (.write ref off bytes) (unwinding fun reply => next (.ofUnit reply) scope)
  | .localRef name =>
    some <| scope.withRef name next fun ref =>
      .call (.mapping ref) fun
        | some mapping => next (.localRef mapping) scope
        | none => next .unknownName scope
  | .commit name =>
    some <| scope.withRef name next fun ref => effect (.commit ref) rfl (next · scope)
  | .commitAll names =>
    some <| look fun b =>
      match names.mapM b.refs.find? with
      | none => next .unknownName scope
      | some refs => effect (.commitAll refs) rfl (next · scope)
  | .unlocalize =>
    some <| memory .unlocalize fun
      | .error fault => next (.failed fault) scope
      | .ok count => next (.number count) scope
  | _ => none

def noCurrentTask : Payload := .fixed "Can't get a task id when not inside a task"

/-- A statement on tasks, workers and runtimes. -/
def taskAction (scope : Scope) (next : Next) : Action → BoardBody
  | .set var value => next .done { scope with vars := scope.vars.bind var value }
  | .var var =>
    match scope.vars.find? var with
    | some n => next (.value (.number n)) scope
    | none => next .done scope
  | .join name into => scope.join name into next
  | .await name into => scope.await name into next
  | .state name => scope.stateOf name .taskState next
  | .describe name => scope.stateOf name (fun task state => .text (state.describeHandle task)) next
  | .drop name => .share (·.removeTask name) fun b => next (.flag (b.task? name).isSome) scope
  | .waitFor name => .await (fun b => (b.task? name).isSome) fun _ => next .done scope
  | .currentTask =>
    .call .currentTask fun
      | some task => next (.task task) scope
      | none => next (.failed (.panicked noCurrentTask)) scope
  | .tryCurrentTask =>
    .call .currentTask fun
      | some task => next (.task task) scope
      | none => next .done scope
  | .worker =>
    .call .currentWorker fun
      | some worker => next (.worker worker) scope
      | none => next .done scope
  | .holder =>
    .call .currentHolder fun
      | some view => next (.holder view) scope
      | none => next .done scope
  | .holderLen =>
    .call .currentHolder fun
      | some view => next (.number view.len) scope
      | none => next .done scope
  | .storage =>
    .call .currentStorage fun
      | some view => next (.storage view) scope
      | none => next .done scope
  | .depth =>
    .call .currentStorage fun
      | some view => next (.flag (view.len ≠ 0 && view.active.length = view.len)) scope
      | none => next .done scope
  | .runtime worker =>
    look fun b =>
      match b.runtime with
      | none => next .noRuntime scope
      | some runtime =>
        .call (.runtime runtime) fun
          | some view => next (.runtime view.workers view.storages.length
              (if worker ∈ view.storages then some worker else none)) scope
          | none => next .noRuntime scope
  | .stickyCheck =>
    spawnAndJoin { sticky := true, name := none } whichWorker fun
      | .error payload => next (.failed (.panicked payload)) scope
      | .ok outcome =>
        .call .currentWorker fun worker =>
          next (.flag (outcome.toOption = some ((worker.map fun w => .number w).getD .none))) scope
  | .fib n =>
    (fib n).andThen fun
      | .error payload => next (.failed (.panicked payload)) scope
      | .ok v => next (.value v) scope
  | .apply args =>
    spawnAndJoin default (.finish (.number (checksum args))) fun
      | .error payload => next (.failed (.panicked payload)) scope
      | .ok outcome => next (.joined outcome) scope
  | .build flavor calls => scope.build flavor calls next
  | action => (scope.memoryAction next action).getD (next .done scope)

end Scope

end TaskSpace

import TaskSpace.Memory.Describe
import TaskSpace.Registry.Ledger
import TaskSpace.Script.Answer
import TaskSpace.Script.Names

/-!
Sessions: steps on one address space, its holders, storages and tasks, all taken by one thread.
-/
namespace TaskSpace.Session

inductive Job where
  | value (v : Value)
  | holder
  | panic (payload : Payload)
deriving Repr

/-- A thread storage entered and not yet left: its holder, and the one that was current before. -/
structure Entered where
  holder : HolderId
  parent : Option HolderId
deriving Repr

/-- A guard: the storage and the holder that dropping it deregisters. -/
structure Guard where
  storage : StorageId
  holder : HolderId
deriving Repr

/-- Handles and local references of one name are kept apart, and so are queued tasks and their join
handles. -/
structure State where
  ledger : Ledger
  current : Option HolderId
  threads : Nat
  tasks : List (Cell Job)
  pointers : Names Pointer
  handles : Names MappingId
  refs : Names MappingId
  holders : Names HolderId
  storages : Names StorageId
  guards : Names Guard
  entered : Names Entered
  queued : Names TaskId
  joins : Names TaskId

inductive Subject where
  | space
  | handle (name : String)
  | task (name : String)
  | storage (name : String)
deriving Repr

/-- A step that holds no other steps. -/
inductive Step where
  | alloc (name : String) (size blockSize : Nat)
  | dealloc (ptr : Place)
  | put (ptr : Place) (bytes : Bytes)
  | commit (ptr : Place) (bytes : Bytes)
  | get (ptr : Place) (len : Nat)
  | fill (ptr : Place) (value : UInt8) (len : Nat)
  | rmw (ptr : Place) (len : Nat) (update : Update)
  | localize (name : String) (ptr : Place) (len : Nat) (access : Access) (worker : WorkerId)
  | localizeAll (name : String) (ranges : List (Place × Nat)) (access : Access) (worker : WorkerId)
  | localizeRows (name : String) (ptr : Place) (stride rows rowLen : Nat) (access : Access)
      (worker : WorkerId)
  | unlocalize (handle : String)
  | handle (handle : String)
  | localRef (ref : String)
  | read (ref : String)
  | write (ref : String) (off : Nat) (bytes : Bytes)
  | commitRef (ref : String)
  | homes (ptr : Place) (count step : Nat)
  | numHomes
  | describe (subject : Subject)
  | holder (name : String) (owner : Option TaskId)
  | holderInfo (holder : String)
  | record (holder : Option String) (handle : String)
  | drain (holder : String)
  | storage (name : String) (worker : WorkerId)
  | close (storage : String)
  | tryRegister (storage holder : String) (foreign : Bool)
  | tryDeregister (storage : String) (foreign : Bool)
  | register (storage holder : String)
  | deregister (storage : String)
  | contains (storage holder : String)
  | storageInfo (storage : String)
  | guard (name storage holder : String)
  | dropGuard (guard : String)
  | enter (name : String) (owner : Option TaskId)
  | leave (entered : String)
  | current
  | task (name : String) (job : Job) (sticky : Bool) (title : Option String)
  | run (task storage : String)
  | dropTask (task : String)
  | detach (task : String)
  | state (task : String)
  | await (task : String)
  | join (task : String)

/-- Steps in order. A bracket holds the steps of its body; a panic ends the body that it is in. -/
inductive Steps where
  | stop
  | step (step : Step) (rest : Steps)
  | bracket (storage : String) (owner : Option TaskId) (body rest : Steps)
  | panic (payload : Payload) (rest : Steps)

/-- The process aborts: a registration went wrong in a place that cannot report it, or a task broke
a promise. -/
inductive Abort where
  | registry (error : RegistryError)
  | task (violation : Violation)
deriving Repr

/-- What a step reports, with the live mappings and the cached regions after it. -/
inductive Report where
  | step (answer : Answer) (live cached : Nat)
  | bracket (body : List Report) (panic : Option Payload) (live cached : Nat)
  | panicking
  | aborted
deriving Repr

inductive Ending where
  | finished
  | panicked (payload : Payload)
  | aborted (cause : Abort)

namespace State

def main : ThreadId := 0

def start (homes : Nat) : State :=
  { ledger := { spaces := [Recorder.new homes], roster := .empty }
    current := none, threads := 1, tasks := []
    pointers := [], handles := [], refs := [], holders := [], storages := [], guards := []
    entered := [], queued := [], joins := [] }

def recorder (s : State) : Recorder := s.ledger.spaces.headD (.new 0)

def space (s : State) : Space := s.recorder.space

def setRecorder (s : State) (recorder : Recorder) : State :=
  { s with ledger := s.ledger.updateSpace 0 fun _ => recorder }

/-- Does an operation that changes the address space, or is refused. -/
def change (s : State) (op : Recorder → Except Fault Recorder) : Answer × State :=
  match op s.recorder with
  | .ok recorder => (.done, s.setRecorder recorder)
  | .error fault => (.failed fault, s)

def changeSpace (s : State) (op : Space → Except Fault Space) : Answer × State :=
  s.change fun recorder => recorder.keep (op recorder.space)

def resolve (s : State) (place : Place) : Pointer := place.resolve s.pointers

def mapping? (s : State) (names : Names MappingId) (name : String) : Option Mapping := do
  let id ← names.find? name
  s.space.mappings[id]?

/-- The thread of a call: the one of the session, or a new one. -/
def callThread (s : State) (foreign : Bool) : ThreadId × State :=
  if foreign then (s.threads, { s with threads := s.threads + 1 }) else (main, s)

def cell? (s : State) (id : TaskId) : Option (Cell Job) :=
  match id with
  | 0 => none
  | place + 1 => s.tasks[place]?

def setCell (s : State) (cell : Cell Job) : State :=
  { s with tasks := s.tasks.set (cell.id - 1) cell }

def localizeAll (s : State) (name : String) (ranges : List Range) (access : Access)
    (worker : WorkerId) : Answer × State :=
  match AddressSpace.localizeAll s.recorder ranges access worker with
  | (.ok ids, recorder) =>
    (.number ids.length, { s.setRecorder recorder with
      handles := s.handles.bindAll name ids
      refs := s.refs.bindAll name ids })
  | (.error fault, recorder) => (.failed fault, s.setRecorder recorder)

def holderView (s : State) (id : HolderId) : Option HolderView :=
  (s.ledger.roster.holder? id).map (·.view id)

def register (s : State) (storage : StorageId) (thread : ThreadId) (holder : HolderId) :
    Except RegistryError Unit × State :=
  let (answer, ledger) := s.ledger.register storage thread holder
  (answer, { s with ledger })

def deregister (s : State) (storage : StorageId) (thread : ThreadId) :
    Except RegistryError HolderId × State :=
  let (answer, ledger) := s.ledger.deregister storage thread
  (answer, { s with ledger })

def openBracket (s : State) (storage : StorageId) (owner : Option TaskId) :
    Except Abort (Bracket × State) :=
  match s.ledger.openBracket storage main owner s.current with
  | (.ok bracket, ledger) => .ok (bracket, { s with ledger, current := some bracket.holder })
  | (.error error, _) => .error (.registry error)

/-- Ends a bracket, whatever happened in its body. -/
def closeBracket (s : State) (bracket : Bracket) : Except Abort State :=
  match s.ledger.closeBracket main bracket with
  | (.ok _, ledger) => .ok { s with ledger, current := bracket.parent }
  | (.error error, _) => .error (.registry error)

/-- What a job gives while its holder is current. -/
def perform (s : State) : Job → Except Payload Value
  | .value v => .ok v
  | .holder =>
    match s.current with
    | none => .ok .none
    | some id =>
      match s.ledger.roster.holder? id with
      | none => .ok .none
      | some h => .ok (.holder id h.owner h.registeredOn)
  | .panic payload => .error payload

/-- Runs a queued task inside a bracket, and publishes its outcome. The answer is false if the body
was taken before. -/
def runTask (s : State) (cell : Cell Job) (storage : StorageId) : Except Abort (Bool × State) :=
  match cell.take with
  | none => .ok (false, s)
  | some (job, cell) =>
    match cell.start with
    | .error violation => .error (.task violation)
    | .ok cell => do
      let (bracket, s) ← (s.setCell cell).openBracket storage (some cell.id)
      let result := s.perform job
      let s ← s.closeBracket bracket
      match cell.complete (result.mapError fun payload => .panicked cell.id payload) with
      | .error violation => .error (.task violation)
      | .ok cell => return (true, s.setCell cell)

def cancelTask (s : State) (id : TaskId) : Except Abort State :=
  match s.cell? id with
  | none => .ok s
  | some cell =>
    match cell.cancel with
    | .error violation => .error (.task violation)
    | .ok cell => .ok (s.setCell cell)

def takeOnSpace (s : State) : Step → Option (Answer × State)
  | .alloc name size blockSize =>
    match AddressSpace.alloc s.recorder size blockSize with
    | (.ok ptr, recorder) =>
      some (.pointer ptr, { s.setRecorder recorder with pointers := s.pointers.bind name ptr })
    | (.error fault, recorder) => some (.failed fault, s.setRecorder recorder)
  | .dealloc ptr => some (s.change fun a => AddressSpace.dealloc a (s.resolve ptr))
  | .put ptr bytes => some (s.change fun a => AddressSpace.put a (s.resolve ptr) bytes)
  | .commit ptr bytes => some (s.change fun a => AddressSpace.commit a (s.resolve ptr) bytes)
  | .get ptr len => some (.ofBytes (AddressSpace.get s.recorder (s.resolve ptr) len), s)
  | .fill ptr value len => some (s.change fun a => AddressSpace.fill a (s.resolve ptr) value len)
  | .rmw ptr len update =>
    match AddressSpace.rmw s.recorder (s.resolve ptr) len update with
    | .ok (old, recorder) => some (.bytes old, s.setRecorder recorder)
    | .error fault => some (.failed fault, s)
  | .localize name ptr len access worker =>
    match AddressSpace.localize s.recorder (s.resolve ptr) len access worker with
    | (.ok id, recorder) =>
      some (.done, { s.setRecorder recorder with
        handles := s.handles.bind name id, refs := s.refs.bind name id })
    | (.error fault, recorder) => some (.failed fault, s.setRecorder recorder)
  | .localizeAll name ranges access worker =>
    some (s.localizeAll name (ranges.map fun (ptr, len) => ⟨s.resolve ptr, len⟩) access worker)
  | .localizeRows name ptr stride rows rowLen access worker =>
    some (s.localizeAll name (Range.strided (s.resolve ptr) stride rows rowLen) access worker)
  | .homes ptr count step =>
    let ptr := s.resolve ptr
    some (.homes ((List.range count).map fun i =>
      AddressSpace.homeOf s.recorder (ptr.wrappingAdd (i * step))), s)
  | .numHomes => some (.number s.space.numHomes, s)
  | .describe .space => some (.text s.space.describe, s)
  | _ => none

def takeOnMapping (s : State) : Step → Option (Answer × State)
  | .unlocalize name => do
    let id ← s.handles.find? name
    return (.done, { s.setRecorder (AddressSpace.unlocalize s.recorder id) with
      handles := s.handles.remove name })
  | .handle name => do return (.handle (← s.mapping? s.handles name), s)
  | .localRef name => do return (.localRef (← s.mapping? s.refs name), s)
  | .read name => do
    let id ← s.refs.find? name
    return (.ofBytes (s.space.read id), s)
  | .write name off bytes => do
    let id ← s.refs.find? name
    return s.changeSpace fun space => space.write id off bytes
  | .commitRef name => do
    let id ← s.refs.find? name
    let (answer, ledger) := s.ledger.commit 0 ⟨0, id⟩
    return (.ofUnit answer, { s with ledger })
  | .describe (.handle name) => do
    return (.text (s.space.describeHandle (← s.mapping? s.handles name)), s)
  | .record holder name => do
    let holderId ← match holder with
      | some holderName => s.holders.find? holderName
      | none => s.current
    let id ← s.handles.find? name
    let s := { s with ledger := s.ledger.record holderId id, handles := s.handles.remove name }
    return (.number ((s.ledger.roster.holder? holderId).map Holder.len |>.getD 0), s)
  | _ => none

/-- Takes a step on holders, storages and thread storages that cannot abort. -/
def takeOnRoster (s : State) : Step → Option (Answer × State)
  | .holder name owner =>
    let (id, ledger) := s.ledger.addHolder owner
    some (.number id, { s with ledger, holders := s.holders.bind name id })
  | .holderInfo name => do
    let id ← s.holders.find? name
    return (.holder (← s.holderView id), s)
  | .drain name => do
    let id ← s.holders.find? name
    let (handles, roster) := s.ledger.roster.drain id
    let starts := handles.filterMap fun id => (s.space.mappings[id]?).map Mapping.start
    return (.pointers starts, { s with ledger := { s.ledger with roster }.release 0 handles })
  | .storage name worker =>
    let (id, ledger) := s.ledger.addStorage worker 0
    some (.done, { s with ledger, storages := s.storages.bind name id })
  | .close name => do
    let id ← s.storages.find? name
    return (.done, { s with ledger := { s.ledger with
      roster := s.ledger.roster.updateStorage id Storage.close } })
  | .tryRegister storage holder foreign => do
    let storageId ← s.storages.find? storage
    let holderId ← s.holders.find? holder
    let (thread, s) := s.callThread foreign
    match s.register storageId thread holderId with
    | (.ok _, s) => return (.done, s)
    | (.error error, s) => return (.registryFailed error, s)
  | .tryDeregister storage foreign => do
    let storageId ← s.storages.find? storage
    let (thread, s) := s.callThread foreign
    match s.deregister storageId thread with
    | (.ok id, s) => return (.number id, s)
    | (.error error, s) => return (.registryFailed error, s)
  | .contains storage holder => do
    let storageId ← s.storages.find? storage
    let holderId ← s.holders.find? holder
    return (.flag ((← s.ledger.roster.storages[storageId]?).contains holderId), s)
  | .storageInfo name => do
    let id ← s.storages.find? name
    return (.storage (← s.ledger.roster.storages[id]?).view, s)
  | .describe (.storage name) => do
    let id ← s.storages.find? name
    return (.text (← s.ledger.roster.storages[id]?).describe, s)
  | .enter name owner =>
    let (id, ledger) := s.ledger.addHolder owner
    some (.number id, { s with
      ledger, current := some id
      holders := s.holders.bind name id
      entered := s.entered.bind name ⟨id, s.current⟩ })
  | .leave name => do
    let found ← s.entered.find? name
    return (.done, { s with current := found.parent, entered := s.entered.remove name })
  | .current =>
    match s.current.bind s.holderView with
    | some view => some (.current view, s)
    | none => some (.done, s)
  | _ => none

/-- Takes a step on registrations that aborts when it goes wrong. -/
def takeOrAbort (s : State) : Step → Option (Except Abort (Answer × State))
  | .register storage holder => do
    let storageId ← s.storages.find? storage
    let holderId ← s.holders.find? holder
    match s.register storageId main holderId with
    | (.ok _, s) => return .ok (.done, s)
    | (.error error, _) => return .error (.registry error)
  | .deregister storage => do
    let storageId ← s.storages.find? storage
    match s.deregister storageId main with
    | (.ok id, s) => return .ok (.number id, s)
    | (.error error, _) => return .error (.registry error)
  | .guard name storage holder => do
    let storageId ← s.storages.find? storage
    let holderId ← s.holders.find? holder
    match s.register storageId main holderId with
    | (.ok _, s) => return .ok (.number holderId, { s with
        guards := s.guards.bind name ⟨storageId, holderId⟩ })
    | (.error error, _) => return .error (.registry error)
  | .dropGuard name => do
    let found ← s.guards.find? name
    match s.ledger.deregisterOwn found.storage main found.holder with
    | (.ok _, ledger) => return .ok (.done, { s with ledger, guards := s.guards.remove name })
    | (.error error, _) => return .error (.registry error)
  | _ => none

def takeOnTask (s : State) : Step → Option (Except Abort (Answer × State))
  | .task name job sticky title =>
    let id := s.tasks.length + 1
    let s := { s with tasks := s.tasks ++ [Cell.spawned id sticky title job] }
    let replaced := match s.queued.find? name with
      | some old => s.cancelTask old
      | none => .ok s
    some do
      let s ← replaced
      return (.newTask id sticky, { s with
        queued := s.queued.bind name id, joins := s.joins.bind name id })
  | .run name storage => do
    let id ← s.queued.find? name
    let storageId ← s.storages.find? storage
    let cell ← s.cell? id
    return do
      let (ran, s) ← { s with queued := s.queued.remove name }.runTask cell storageId
      return (.flag ran, s)
  | .dropTask name => do
    let id ← s.queued.find? name
    return do
      let s ← s.cancelTask id
      return (.done, { s with queued := s.queued.remove name })
  | .detach name => do
    let _ ← s.joins.find? name
    return .ok (.done, { s with joins := s.joins.remove name })
  | .describe (.task name) => do
    let id ← s.queued.find? name
    return .ok (.text (← s.cell? id).describe, s)
  | .state name => do
    let id ← s.joins.find? name
    return .ok (.taskState id (← s.cell? id).state, s)
  | .await name => do
    let id ← s.joins.find? name
    let cell ← s.cell? id
    if cell.state.isTerminal then
      match cell.get with
      | .ok outcome => return .ok (.awaited outcome, s)
      | .error violation => return .error (.task violation)
    else return .ok (.wouldDeadlock, s)
  | .join name => do
    let id ← s.joins.find? name
    let cell ← s.cell? id
    if cell.state.isTerminal then
      match cell.join with
      | .ok outcome => return .ok (.joined outcome, { s with joins := s.joins.remove name })
      | .error violation => return .error (.task violation)
    else return .ok (.wouldDeadlock, s)
  | _ => none

/-- Takes one step. A step that uses a name without meaning changes nothing. -/
def take (s : State) (step : Step) : Except Abort (Answer × State) :=
  match s.takeOnSpace step <|> s.takeOnMapping step <|> s.takeOnRoster step with
  | some result => .ok result
  | none => (s.takeOrAbort step <|> s.takeOnTask step).getD (.ok (.unknownName, s))

end State

/-- Takes steps until they end, panic or abort. -/
def Steps.run : Steps → State → List Report × Ending × State
  | .stop, s => ([], .finished, s)
  | .panic payload _, s => ([.panicking], .panicked payload, s)
  | .step head rest, s =>
    match s.take head with
    | .error cause => ([], .aborted cause, s)
    | .ok (answer, s) =>
      let report := .step answer s.space.liveMappings s.space.cachedRegions
      let (reports, ending, s) := rest.run s
      (report :: reports, ending, s)
  | .bracket storage owner body rest, s =>
    match s.storages.find? storage with
    | none =>
      let report := .step .unknownName s.space.liveMappings s.space.cachedRegions
      let (reports, ending, s) := rest.run s
      (report :: reports, ending, s)
    | some storageId =>
      match s.openBracket storageId owner with
      | .error cause => ([], .aborted cause, s)
      | .ok (opened, s) =>
        let close (inner : List Report) (payload : Option Payload) (s : State) :
            List Report × Ending × State :=
          match s.closeBracket opened with
          | .error cause => ([], .aborted cause, s)
          | .ok s =>
            let report := .bracket inner payload s.space.liveMappings s.space.cachedRegions
            let (reports, ending, s) := rest.run s
            (report :: reports, ending, s)
        match body.run s with
        | (_, .aborted cause, s) => ([], .aborted cause, s)
        | (inner, .panicked payload, s) => close inner (some payload) s
        | (inner, .finished, s) => close inner none s

/-- The reports of a session. When it aborts, they end with that. -/
def run (homes : Nat) (steps : Steps) : List Report :=
  match steps.run (State.start homes) with
  | (reports, .aborted _, _) => reports ++ [.aborted]
  | (reports, _, _) => reports

end TaskSpace.Session

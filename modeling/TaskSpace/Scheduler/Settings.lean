import TaskSpace.Memory.Describe

/-!
The settings of a runtime, and the configuration that it is built from.
-/
namespace TaskSpace

/-- A runtime runs its tasks on the one thread that built it, or on a pool of threads as well. -/
inductive Flavor where
  | localOnly
  | stealing
deriving DecidableEq, Repr, Inhabited

def Flavor.name : Flavor → String
  | localOnly => "Local"
  | stealing => "Stealing"

/-- How the threads of a runtime are named, in the order they start. -/
inductive Naming where
  | numbered
  | constant (name : String)
deriving DecidableEq, Repr

/-- The name of the `n`-th thread, counted from `0`. -/
def Naming.nth (n : Nat) : Naming → String
  | numbered => "gasrt-" ++ toString n
  | constant name => name

/-- The system keeps the first 15 bytes of a name, up to a zero. -/
def Naming.systemName (name : String) : Bytes :=
  (name.toUTF8.toList.take 15).takeWhile (· ≠ 0)

structure Settings where
  flavor : Flavor
  workerThreads : Option Nat
  naming : Naming
  stackSize : Option Nat
  interval : Nat
  retries : Nat
  space : Option Space

inductive Setting where
  | workerThreads (n : Nat)
  | naming (naming : Naming)
  | stackSize (n : Nat)
  | interval (n : Nat)
  | retries (n : Nat)
  | addressSpace (homes : Nat)
deriving DecidableEq, Repr

/-- Why a configuration is refused, or the panic that working it out ends in. -/
inductive ConfigError where
  | stackTooSmall (size : Nat)
  | panicked (payload : Payload)
deriving DecidableEq, Repr

/-- The least stack that the system gives a thread. -/
def minStack : Nat := 16384

def ConfigError.message : ConfigError → String
  | stackTooSmall size =>
    "thread_stack_size (" ++ toString size ++ ") is below PTHREAD_STACK_MIN (" ++ toString minStack
      ++ ")"
  | panicked payload => payload.text?.getD ""

structure Config where
  flavor : Flavor
  workerThreads : Nat
  naming : Naming
  stackSize : Option Nat
  interval : Nat
  retries : Nat
  space : Space

namespace Settings

def new (flavor : Flavor) : Settings :=
  { flavor, workerThreads := none, naming := .numbered, stackSize := none
    interval := 31, retries := 3, space := none }

def isPowerOfTwo (n : Nat) : Bool := n ≠ 0 && n &&& (n - 1) = 0

/-- Changes one setting; a value that makes no sense panics. -/
def set (s : Settings) : Setting → Except Payload Settings
  | .workerThreads n =>
    if n = 0 then .error (.fixed "worker_threads must be greater than 0")
    else .ok { s with workerThreads := some n }
  | .naming naming => .ok { s with naming }
  | .stackSize n =>
    if isPowerOfTwo n then .ok { s with stackSize := some n }
    else .error (.fixed "thread_stack_size must be a power of two")
  | .interval n =>
    if n = 0 then .error (.fixed "global_queue_interval must be greater than 0")
    else .ok { s with interval := n }
  | .retries n =>
    if n = 0 then .error (.fixed "max_steal_retries must be greater than 0")
    else .ok { s with retries := n }
  | .addressSpace homes => .ok { s with space := some (Space.new homes) }

def setAll (s : Settings) : List Setting → Except Payload Settings
  | [] => .ok s
  | setting :: rest =>
    match s.set setting with
    | .ok s => s.setAll rest
    | .error payload => .error payload

/-- The number of workers: the root worker, and those of the pool. -/
def numWorkers (flavor : Flavor) (workerThreads : Nat) : Except Payload Nat :=
  match flavor with
  | .localOnly => .ok 1
  | .stealing =>
    match Word.add? workerThreads 1 with
    | some n => .ok n
    | none => .error .addOverflow

/-- The configuration for these settings on a machine of the given parallelism. -/
def toConfig (s : Settings) (parallelism : Nat) : Except ConfigError Config :=
  let workerThreads := s.workerThreads.getD parallelism
  match numWorkers s.flavor workerThreads with
  | .error payload => .error (.panicked payload)
  | .ok workers =>
    let config : Config :=
      { flavor := s.flavor, workerThreads, naming := s.naming, stackSize := s.stackSize
        interval := s.interval, retries := s.retries
        space := s.space.getD (Space.new workers) }
    match s.stackSize with
    | some size => if size < minStack then .error (.stackTooSmall size) else .ok config
    | none => .ok config

/-- The configuration after a list of calls, on a machine of the given parallelism. -/
def prepare (flavor : Flavor) (calls : List Setting) (parallelism : Nat) :
    Except ConfigError Config :=
  match (Settings.new flavor).setAll calls with
  | .ok s => s.toConfig parallelism
  | .error payload => .error (.panicked payload)

def describe (s : Settings) : String :=
  let optional (n : Option Nat) : String :=
    match n with
    | some n => "Some(" ++ toString n ++ ")"
    | none => "None"
  "Builder \x7b kind: " ++ s.flavor.name ++ ", worker_threads: " ++ optional s.workerThreads
    ++ ", thread_name: ThreadNameFn(\"<function>\"), thread_stack_size: " ++ optional s.stackSize
    ++ ", global_queue_interval: " ++ toString s.interval ++ ", max_steal_retries: "
    ++ toString s.retries ++ ", address_space: "
    ++ (match s.space with
      | some space => "Some(" ++ space.describe ++ ")"
      | none => "None")
    ++ " \x7d"

end Settings

namespace Config

def poolSize (c : Config) : Nat :=
  match c.flavor with
  | .localOnly => 0
  | .stealing => c.workerThreads

def numWorkers (c : Config) : Nat := c.poolSize + 1

/-- Every task of a local runtime is sticky. -/
def defaultSticky (c : Config) : Bool := c.flavor = .localOnly

/-- The names of the thread that builds the runtime, and of the pool. -/
def threadNames (c : Config) : Bytes × List Bytes :=
  (Naming.systemName (c.naming.nth 0),
    (List.range c.poolSize).map fun i => Naming.systemName (c.naming.nth (i + 1)))

/-- The stacks that are too large for the system to make a thread with. -/
def stackTooLarge (c : Config) : Bool :=
  match c.stackSize with
  | some size => 0x4000000000000 ≤ size
  | none => false

/-- How many homes the blocks of a probe are spread over: one allocation of 64 bytes in blocks of
one byte. -/
def probeHomes (c : Config) : Nat :=
  match c.space.alloc 64 1 with
  | (.ok base, space) =>
    let homes := (List.range 64).map fun i =>
      match space.homeOf (base.wrappingAdd i) with
      | .ok home => home + 1
      | .error _ => 0
    homes.foldl max 0
  | (.error _, _) => 0

end Config

/-- Why a runtime cannot be built. -/
inductive BuildError where
  | alreadyActive
  | config (error : ConfigError)
  | spawnFailed (worker : WorkerId)
deriving DecidableEq, Repr

def BuildError.message : BuildError → String
  | alreadyActive => "Cannot create a new Runtime: a runtime is already active on this thread."
  | config error => error.message
  | spawnFailed worker => "failed to spawn thread for worker " ++ toString worker

def Config.checkPool (c : Config) : Except BuildError Unit :=
  if c.poolSize ≠ 0 ∧ c.stackTooLarge then .error (.spawnFailed 1) else .ok ()

/-- The configuration after a list of calls, once its threads can be started. -/
def Settings.build (flavor : Flavor) (calls : List Setting) (parallelism : Nat) :
    Except BuildError Config :=
  match Settings.prepare flavor calls parallelism with
  | .error error => .error (.config error)
  | .ok config => config.checkPool.map fun _ => config

end TaskSpace

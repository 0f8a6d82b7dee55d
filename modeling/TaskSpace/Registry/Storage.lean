import TaskSpace.Registry.Error
import TaskSpace.Word

/-!
Holders of mappings, and the registry that each worker keeps of them.
-/
namespace TaskSpace

/-- Gathers the mappings that one task body makes. -/
structure Holder where
  owner : Option TaskId
  /-- The worker it is registered on, or the mark of none. -/
  mark : Nat
  /-- In the order they were recorded. -/
  handles : List MappingId
deriving DecidableEq, Repr, Inhabited

namespace Holder

/-- The word that marks a holder as registered nowhere. -/
def unregistered : Nat := Word.top

def fresh (owner : Option TaskId) : Holder := { owner, mark := unregistered, handles := [] }

def registeredOn (h : Holder) : Option WorkerId :=
  if h.mark = unregistered then none else some h.mark

def len (h : Holder) : Nat := h.handles.length

end Holder

/-- A registered holder, and the one that was on top before it. -/
structure Registration where
  holder : HolderId
  parent : Option HolderId
deriving DecidableEq, Repr

/-- How many holders came and went, and how many mappings their going released. -/
structure Counters where
  registered : Nat
  deregistered : Nat
  unlocalized : Nat
deriving DecidableEq, Repr, Inhabited

/-- The registry of one worker: a stack of holders, linked from the top through the parents. -/
structure Storage where
  worker : WorkerId
  space : SpaceId
  /-- The thread that it belongs to, bound by the first attempt to register or deregister. -/
  owner : Option ThreadId
  current : Option HolderId
  entries : List Registration
  closed : Bool
  counters : Counters
deriving DecidableEq, Repr

namespace Storage

def fresh (worker : WorkerId) (space : SpaceId) : Storage :=
  { worker, space, owner := none, current := none, entries := [], closed := false
    counters := ⟨0, 0, 0⟩ }

def len (s : Storage) : Nat := s.entries.length

def entry? (s : Storage) (holder : HolderId) : Option Registration :=
  s.entries.find? fun entry => entry.holder = holder

def contains (s : Storage) (holder : HolderId) : Bool := (s.entry? holder).isSome

def chain (s : Storage) : (limit : Nat) → (top : Option HolderId) → List HolderId
  | 0, _ | _, none => []
  | limit + 1, some top => top :: s.chain limit ((s.entry? top).bind Registration.parent)

/-- The registered holders from the top of the stack down. -/
def active (s : Storage) : List HolderId := s.chain (s.len + 1) s.current

def bind (s : Storage) (thread : ThreadId) : Storage :=
  { s with owner := s.owner <|> some thread }

def push (s : Storage) (holder : HolderId) : Storage :=
  { s with
    current := some holder
    entries := ⟨holder, s.current⟩ :: s.entries.filter fun entry => entry.holder ≠ holder
    counters := { s.counters with registered := s.counters.registered + 1 } }

def pop (s : Storage) : Option (HolderId × Storage) := do
  let top ← s.current
  let entry ← s.entry? top
  return (top, { s with
    current := entry.parent
    entries := s.entries.filter fun entry => entry.holder ≠ top })

/-- No holder is registered from now on. -/
def close (s : Storage) : Storage := { s with closed := true }

/-- Counts a holder gone, with the mappings released. -/
def countReleased (s : Storage) (handles : Nat) : Storage :=
  { s with counters := { s.counters with
      deregistered := s.counters.deregistered + 1
      unlocalized := s.counters.unlocalized + handles } }

def describe (s : Storage) : String :=
  "WorkerStorage \x7b worker_id: WorkerId(" ++ toString s.worker ++ "), active: " ++ toString s.len
    ++ ", closed: " ++ toString s.closed ++ ", stats: WorkerStorageStats \x7b registered: "
    ++ toString s.counters.registered ++ ", deregistered: " ++ toString s.counters.deregistered
    ++ ", unlocalized: " ++ toString s.counters.unlocalized ++ " \x7d \x7d"

end Storage

end TaskSpace

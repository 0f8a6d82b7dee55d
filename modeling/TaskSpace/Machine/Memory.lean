import TaskSpace.Registry.Ledger

/-!
Global memory as task bodies use it: every operation reaches the address space of the runtime that
the thread works for, and mappings are recorded in the holder of the running body.
-/
namespace TaskSpace

/-- Where a thread works: the address space, the worker, and the holder of the innermost body. -/
structure Site where
  space : SpaceId
  worker : WorkerId
  holder : Option HolderId
deriving DecidableEq, Repr

inductive MemoryOp where
  | alloc (size blockSize : Nat)
  | dealloc (ptr : Pointer)
  | put (ptr : Pointer) (bytes : Bytes)
  | get (ptr : Pointer) (len : Nat)
  | fill (ptr : Pointer) (value : UInt8) (len : Nat)
  | rmw (ptr : Pointer) (len : Nat) (update : Update)
  | homeOf (ptr : Pointer)
  | localize (ptr : Pointer) (len : Nat) (access : Access)
  | localizeAll (ranges : List Range) (access : Access)
  | commit (ref : LocalRef)
  | commitAll (refs : List LocalRef)
  | unlocalize

namespace MemoryOp

/-- What an operation gives when it succeeds. -/
@[reducible] def Result : MemoryOp → Type
  | alloc _ _ => Pointer
  | get _ _ | rmw _ _ _ => Bytes
  | homeOf _ => WorkerId
  | localize _ _ _ => LocalRef
  | localizeAll _ _ => List LocalRef
  | unlocalize => Nat
  | dealloc _ | put _ _ | fill _ _ _ | commit _ | commitAll _ => Unit

/-- An operation succeeds, is refused or panics. -/
abbrev Reply (op : MemoryOp) : Type := Except Fault op.Result

end MemoryOp

namespace Ledger

def localize (l : Ledger) (space : SpaceId) (worker : WorkerId) (holder : HolderId)
    (ptr : Pointer) (len : Nat) (access : Access) : Except Fault LocalRef × Ledger :=
  match l.spaces[space]? with
  | none => (.error (.refused .noTaskContext), l)
  | some a =>
    match AddressSpace.localize a ptr len access worker with
    | (.ok id, a) => (.ok ⟨space, id⟩, (l.updateSpace space fun _ => a).record holder id)
    | (.error fault, a) => (.error fault, l.updateSpace space fun _ => a)

/-- Maps every range for the body of a holder, or none. -/
def localizeAll (l : Ledger) (space : SpaceId) (worker : WorkerId) (holder : HolderId)
    (ranges : List Range) (access : Access) : Except Fault (List LocalRef) × Ledger :=
  match l.spaces[space]? with
  | none => (.error (.refused .noTaskContext), l)
  | some a =>
    match AddressSpace.localizeAll a ranges access worker with
    | (.ok ids, a) =>
      (.ok (ids.map fun id => ⟨space, id⟩),
        ids.foldl (fun l id => l.record holder id) (l.updateSpace space fun _ => a))
    | (.error fault, a) => (.error fault, l.updateSpace space fun _ => a)

/-- Releases everything that the body of a holder has mapped; the answer is how much that was. -/
def unlocalize (l : Ledger) (space : SpaceId) (holder : HolderId) : Nat × Ledger :=
  let (handles, roster) := l.roster.drain holder
  (handles.length, { l with roster }.release space handles)

/-- Does an operation that only looks at a space. -/
def look {α : Type} (l : Ledger) (space : SpaceId) (op : Recorder → Except Fault α) :
    Except Fault α :=
  match l.spaces[space]? with
  | none => .error (.refused .noTaskContext)
  | some a => op a

/-- An operation by a thread that works in a space for a worker, with the holder of its innermost
body, if it runs one. -/
def performIn (l : Ledger) (space : SpaceId) (worker : WorkerId) (holder : Option HolderId) :
    (op : MemoryOp) → op.Reply × Ledger
  | .alloc size blockSize =>
    match l.spaces[space]? with
    | none => (.error (.refused .noTaskContext), l)
    | some a =>
      let (answer, a) := AddressSpace.alloc a size blockSize
      (answer, l.updateSpace space fun _ => a)
  | .dealloc ptr => l.change space fun a => AddressSpace.dealloc a ptr
  | .put ptr bytes => l.change space fun a => AddressSpace.put a ptr bytes
  | .get ptr len => (l.look space fun a => AddressSpace.get a ptr len, l)
  | .fill ptr value len => l.change space fun a => AddressSpace.fill a ptr value len
  | .rmw ptr len update =>
    match l.look space fun a => AddressSpace.rmw a ptr len update with
    | .ok (old, a) => (.ok old, l.updateSpace space fun _ => a)
    | .error fault => (.error fault, l)
  | .homeOf ptr => (l.look space fun a => AddressSpace.homeOf a ptr, l)
  | .localize ptr len access =>
    match holder with
    | none => (.error (.refused .noTaskContext), l)
    | some holder => l.localize space worker holder ptr len access
  | .localizeAll ranges access =>
    match holder with
    | none => (.error (.refused .noTaskContext), l)
    | some holder => l.localizeAll space worker holder ranges access
  | .commit ref => l.commit space ref
  | .commitAll refs => l.commitAll space refs
  | .unlocalize =>
    match holder with
    | none => (.error (.refused .noTaskContext), l)
    | some holder =>
      let (count, l) := l.unlocalize space holder
      (.ok count, l)

/-- An operation by a thread that works for no runtime: a commit reads before it is refused. -/
def refuse (l : Ledger) : (op : MemoryOp) → op.Reply
  | .commit ref =>
    match l.read ref with
    | .error fault => .error fault
    | .ok _ => .error (.refused .noTaskContext)
  | .alloc _ _ | .dealloc _ | .put _ _ | .get _ _ | .fill _ _ _ | .rmw _ _ _ | .homeOf _
  | .localize _ _ _ | .localizeAll _ _ | .commitAll _ | .unlocalize =>
    .error (.refused .noTaskContext)

def perform (l : Ledger) (site : Option Site) (op : MemoryOp) : op.Reply × Ledger :=
  match site with
  | some site => l.performIn site.space site.worker site.holder op
  | none => (l.refuse op, l)

end Ledger

end TaskSpace

import TaskSpace.Memory.Recorder
import TaskSpace.Registry.Roster

/-!
The address spaces and the roster together: what task bodies change. A bracket registers a fresh
holder around a body, and releases what the body left mapped.
-/
namespace TaskSpace

structure Ledger where
  spaces : List Recorder
  roster : Roster

/-- What closing a bracket needs: the storage, the holder, and the holder that was current. -/
structure Bracket where
  storage : StorageId
  holder : HolderId
  parent : Option HolderId
deriving DecidableEq, Repr

namespace Ledger

def updateSpace (l : Ledger) (id : SpaceId) (f : Recorder → Recorder) : Ledger :=
  { l with spaces := l.spaces.modify id f }

/-- Releases handles in their space, from the first to the last. -/
def release (l : Ledger) (space : SpaceId) (handles : List MappingId) : Ledger :=
  l.updateSpace space fun a => AddressSpace.unlocalizeAll a handles

def addHolder (l : Ledger) (owner : Option TaskId) : HolderId × Ledger :=
  let (id, roster) := l.roster.addHolder owner
  (id, { l with roster })

def addStorage (l : Ledger) (worker : WorkerId) (space : SpaceId) : StorageId × Ledger :=
  let (id, roster) := l.roster.addStorage worker space
  (id, { l with roster })

def addSpace (l : Ledger) (space : Recorder) : SpaceId × Ledger :=
  (l.spaces.length, { l with spaces := l.spaces ++ [space] })

def record (l : Ledger) (holder : HolderId) (handle : MappingId) : Ledger :=
  { l with roster := l.roster.record holder handle }

def register (l : Ledger) (storage : StorageId) (thread : ThreadId) (holder : HolderId) :
    Except RegistryError Unit × Ledger :=
  let (answer, roster) := l.roster.register storage thread holder
  (answer, { l with roster })

/-- Takes the top holder of a storage, and releases its handles in the order they were recorded. -/
def deregister (l : Ledger) (storage : StorageId) (thread : ThreadId) :
    Except RegistryError HolderId × Ledger :=
  let space := ((l.roster.storages[storage]?).map Storage.space).getD 0
  match l.roster.deregister storage thread with
  | (.ok (holder, handles), roster) => (.ok holder, { l with roster }.release space handles)
  | (.error error, roster) => (.error error, { l with roster })

/-- Deregisters, and checks that the holder on top was the one expected. -/
def deregisterOwn (l : Ledger) (storage : StorageId) (thread : ThreadId) (holder : HolderId) :
    Except RegistryError Unit × Ledger :=
  match l.deregister storage thread with
  | (.error error, l) => (.error error, l)
  | (.ok found, l) =>
    if found = holder then (.ok (), l)
    else
      let worker := ((l.roster.storages[storage]?).map Storage.worker).getD 0
      (.error (.outOfOrder worker holder found), l)

/-- Begins a body: a fresh holder, registered with the storage. -/
def openBracket (l : Ledger) (storage : StorageId) (thread : ThreadId) (owner : Option TaskId)
    (parent : Option HolderId) : Except RegistryError Bracket × Ledger :=
  let (holder, l) := l.addHolder owner
  match l.register storage thread holder with
  | (.ok _, l) => (.ok ⟨storage, holder, parent⟩, l)
  | (.error error, l) => (.error error, l)

/-- Ends a body: its holder is deregistered and what it left mapped is released. -/
def closeBracket (l : Ledger) (thread : ThreadId) (b : Bracket) :
    Except RegistryError Unit × Ledger :=
  l.deregisterOwn b.storage thread b.holder

end Ledger

/-- A reference to a mapping, good wherever it is passed. -/
structure LocalRef where
  space : SpaceId
  mapping : MappingId
deriving DecidableEq, Repr

namespace Ledger

/-- Does an operation that changes a space, or is refused. -/
def change (l : Ledger) (space : SpaceId) (op : Recorder → Except Fault Recorder) :
    Except Fault Unit × Ledger :=
  match l.spaces[space]? with
  | none => (.error (.refused .noTaskContext), l)
  | some a =>
    match op a with
    | .ok a => (.ok (), l.updateSpace space fun _ => a)
    | .error fault => (.error fault, l)

def mapping? (l : Ledger) (ref : LocalRef) : Option Mapping := do
  (← l.spaces[ref.space]?).space.mappings[ref.mapping]?

def read (l : Ledger) (ref : LocalRef) : Except Fault Bytes :=
  match l.spaces[ref.space]? with
  | none => .ok []
  | some a => a.space.read ref.mapping

def write (l : Ledger) (ref : LocalRef) (off : Nat) (bytes : Bytes) :
    Except Fault Unit × Ledger :=
  l.change ref.space fun a => a.keep (a.space.write ref.mapping off bytes)

/-- Writes the bytes behind a reference to their place in a space. -/
def commit (l : Ledger) (space : SpaceId) (ref : LocalRef) : Except Fault Unit × Ledger :=
  match l.read ref, l.mapping? ref with
  | .error fault, _ => (.error fault, l)
  | .ok bytes, some mapping =>
    l.change space fun a => AddressSpace.commit a mapping.start bytes
  | .ok _, none => (.ok (), l)

/-- Commits one reference after the other, up to the first refusal. -/
def commitAll (l : Ledger) (space : SpaceId) : List LocalRef → Except Fault Unit × Ledger
  | [] => (.ok (), l)
  | ref :: rest =>
    match l.commit space ref with
    | (.error fault, l) => (.error fault, l)
    | (.ok _, l) => l.commitAll space rest

end Ledger

end TaskSpace

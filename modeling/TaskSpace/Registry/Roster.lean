import TaskSpace.Registry.Storage

/-!
All holders and the storages they register with.
-/
namespace TaskSpace

/-- Holders are named by their place, from `1`; storages by their place, from `0`. -/
structure Roster where
  holders : List Holder
  storages : List Storage
deriving DecidableEq, Repr

namespace Roster

def empty : Roster := ⟨[], []⟩

def holder? (r : Roster) (id : HolderId) : Option Holder :=
  match id with
  | 0 => none
  | place + 1 => r.holders[place]?

def updateHolder (r : Roster) (id : HolderId) (f : Holder → Holder) : Roster :=
  match id with
  | 0 => r
  | place + 1 => { r with holders := r.holders.modify place f }

def updateStorage (r : Roster) (id : StorageId) (f : Storage → Storage) : Roster :=
  { r with storages := r.storages.modify id f }

def addHolder (r : Roster) (owner : Option TaskId) : HolderId × Roster :=
  (r.holders.length + 1, { r with holders := r.holders ++ [Holder.fresh owner] })

def addStorage (r : Roster) (worker : WorkerId) (space : SpaceId) : StorageId × Roster :=
  (r.storages.length, { r with storages := r.storages ++ [Storage.fresh worker space] })

def record (r : Roster) (id : HolderId) (handle : MappingId) : Roster :=
  r.updateHolder id fun h => { h with handles := h.handles ++ [handle] }

def drain (r : Roster) (id : HolderId) : List MappingId × Roster :=
  (((r.holder? id).map Holder.handles).getD [], r.updateHolder id fun h => { h with handles := [] })

/-- Whether `thread` may use a storage; the first to ask binds it. -/
def checkThread (r : Roster) (id : StorageId) (storage : Storage) (thread : ThreadId) :
    Except RegistryError Unit × Roster :=
  match storage.owner with
  | none => (.ok (), r.updateStorage id (·.bind thread))
  | some owner =>
    if owner = thread then (.ok (), r)
    else (.error (.foreignThread storage.worker owner thread), r)

/-- Puts a holder on the stack of a storage. The refusals come in the order foreign thread, closed,
already registered. -/
def register (r : Roster) (id : StorageId) (thread : ThreadId) (holder : HolderId) :
    Except RegistryError Unit × Roster :=
  match r.storages[id]?, r.holder? holder with
  | some storage, some h =>
    match r.checkThread id storage thread with
    | (.error error, r) => (.error error, r)
    | (.ok _, r) =>
      if storage.closed then (.error (.closed storage.worker), r)
      else if h.mark ≠ Holder.unregistered then
        (.error (.alreadyRegistered holder h.mark), r)
      else
        (.ok (), (r.updateHolder holder fun h => { h with mark := storage.worker }).updateStorage id
          (·.push holder))
  | _, _ => (.ok (), r)

/-- Takes the holder on top of a storage, and empties it. The answer names the holder and the
handles to release, in the order they were recorded. -/
def deregister (r : Roster) (id : StorageId) (thread : ThreadId) :
    Except RegistryError (HolderId × List MappingId) × Roster :=
  match r.storages[id]? with
  | none => (.error (.notRegistered 0), r)
  | some storage =>
    match r.checkThread id storage thread with
    | (.error error, r) => (.error error, r)
    | (.ok _, r) =>
      match (storage.bind thread).pop with
      | none => (.error (.notRegistered storage.worker), r)
      | some (top, rest) =>
        let r := r.updateHolder top fun h => { h with mark := Holder.unregistered }
        let (handles, r) := r.drain top
        (.ok (top, handles), r.updateStorage id fun _ => rest.countReleased handles.length)

end Roster

end TaskSpace

import TaskSpace.Registry.Storage

/-!
Holders and storages, as they are seen from outside.
-/
namespace TaskSpace

structure HolderView where
  id : HolderId
  owner : Option TaskId
  len : Nat
  registeredOn : Option WorkerId
deriving DecidableEq, Repr

structure StorageView where
  worker : WorkerId
  len : Nat
  current : Option HolderId
  /-- From the top of the stack down. -/
  active : List HolderId
  counters : Counters
  closed : Bool
deriving DecidableEq, Repr

def Holder.view (h : Holder) (id : HolderId) : HolderView :=
  { id, owner := h.owner, len := h.len, registeredOn := h.registeredOn }

def Storage.view (s : Storage) : StorageView :=
  { worker := s.worker, len := s.len, current := s.current, active := s.active
    counters := s.counters, closed := s.closed }

end TaskSpace

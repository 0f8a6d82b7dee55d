import TaskSpace.Memory.Mapping

/-!
The operations of an address space, and an address space that keeps a record of the mappings it
makes and releases.
-/
namespace TaskSpace

/-- What a runtime asks of an address space. -/
class AddressSpace (α : Type) where
  alloc : α → (size blockSize : Nat) → Except Fault Pointer × α
  dealloc : α → Pointer → Except Fault α
  put : α → Pointer → Bytes → Except Fault α
  get : α → Pointer → (len : Nat) → Except Fault Bytes
  fill : α → Pointer → (value : UInt8) → (len : Nat) → Except Fault α
  rmw : α → Pointer → (len : Nat) → Update → Except Fault (Bytes × α)
  localize : α → Pointer → (len : Nat) → Access → WorkerId → Except Fault MappingId × α
  commit : α → Pointer → Bytes → Except Fault α
  unlocalize : α → MappingId → α
  homeOf : α → Pointer → Except Fault WorkerId
  liveMappings : α → Nat

namespace AddressSpace

variable {α : Type} [AddressSpace α]

/-- Releases mappings from the first to the last. -/
def unlocalizeAll (a : α) (ids : List MappingId) : α := ids.foldl unlocalize a

/-- Maps the ranges left, after those of `made`. At the first refusal everything made is released
again, in order. -/
def localizeRest (access : Access) (worker : WorkerId) (made : List MappingId) :
    List Range → α → Except Fault (List MappingId) × α
  | [], a => (.ok made, a)
  | range :: rest, a =>
    match localize a range.start range.len access worker with
    | (.ok id, a) => localizeRest access worker (made ++ [id]) rest a
    | (.error (.refused error), a) => (.error (.refused error), unlocalizeAll a made)
    | (.error (.panicked payload), a) => (.error (.panicked payload), a)

/-- Maps every range, or none. -/
def localizeAll (a : α) (ranges : List Range) (access : Access) (worker : WorkerId) :
    Except Fault (List MappingId) × α :=
  localizeRest access worker [] ranges a

end AddressSpace

instance : AddressSpace Space where
  alloc := Space.alloc
  dealloc := Space.dealloc
  put := Space.put
  get := Space.get
  fill := Space.fill
  rmw := Space.rmw
  localize := Space.localize
  commit := Space.commit
  unlocalize := Space.unlocalize
  homeOf := Space.homeOf
  liveMappings := Space.liveMappings

/-- A space that records every mapping made, with its worker, and every mapping released. -/
structure Recorder where
  space : Space
  localized : List (Pointer × WorkerId)
  released : List Pointer

namespace Recorder

def new (numHomes : Nat) : Recorder := ⟨Space.new numHomes, [], []⟩

def alloc (r : Recorder) (size blockSize : Nat) : Except Fault Pointer × Recorder :=
  let (answer, space) := r.space.alloc size blockSize
  (answer, { r with space })

/-- A mapping is recorded once it is made. -/
def localize (r : Recorder) (ptr : Pointer) (len : Nat) (access : Access) (worker : WorkerId) :
    Except Fault MappingId × Recorder :=
  match r.space.localize ptr len access worker with
  | (.ok id, space) => (.ok id, { r with space, localized := r.localized ++ [(ptr, worker)] })
  | (.error fault, space) => (.error fault, { r with space })

def unlocalize (r : Recorder) (id : MappingId) : Recorder :=
  { r with
    space := r.space.unlocalize id
    released := r.released ++ (r.space.mappings[id]?.map Mapping.start).toList }

/-- The recorder around the outcome of an operation that is not recorded. -/
def keep (r : Recorder) : Except Fault Space → Except Fault Recorder :=
  Except.map fun space => { r with space }

instance : AddressSpace Recorder where
  alloc := alloc
  dealloc r ptr := r.keep (r.space.dealloc ptr)
  put r ptr bytes := r.keep (r.space.put ptr bytes)
  get r ptr len := r.space.get ptr len
  fill r ptr value len := r.keep (r.space.fill ptr value len)
  rmw r ptr len update :=
    (r.space.rmw ptr len update).map fun (old, space) => (old, { r with space })
  localize := localize
  commit r ptr bytes := r.keep (r.space.commit ptr bytes)
  unlocalize := unlocalize
  homeOf r ptr := r.space.homeOf ptr
  liveMappings r := r.space.liveMappings

end Recorder

end TaskSpace

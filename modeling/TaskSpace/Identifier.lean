/-!
The numbers that name workers, threads, tasks, holders, storages and address spaces.
-/
namespace TaskSpace

/-- Worker `0` is the root worker; the pool is numbered from `1`. -/
abbrev WorkerId := Nat

/-- Tasks are numbered from `1` in the order they are spawned; `0` is the root task. -/
abbrev TaskId := Nat

/-- Holders are numbered from `1` in the order they are made. -/
abbrev HolderId := Nat

abbrev ThreadId := Nat

abbrev MappingId := Nat

abbrev RegionId := Nat

abbrev StorageId := Nat

abbrev SpaceId := Nat

abbrev RuntimeId := Nat

def WorkerId.root : WorkerId := 0

/-- The task that a runtime's own body runs as. -/
def TaskId.root : TaskId := 0

end TaskSpace

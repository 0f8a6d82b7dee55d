import TaskSpace.Identifier

/-!
Violations of the protocol of registration.
-/
namespace TaskSpace

inductive RegistryError where
  | alreadyRegistered (holder : HolderId) (worker : WorkerId)
  | notRegistered (worker : WorkerId)
  | outOfOrder (worker : WorkerId) (expected found : HolderId)
  | closed (worker : WorkerId)
  | foreignThread (worker : WorkerId) (owner thread : ThreadId)
deriving DecidableEq, Repr

def RegistryError.message : RegistryError → String
  | alreadyRegistered holder worker =>
    "holder " ++ toString holder ++ " is already registered on worker " ++ toString worker
  | notRegistered worker => "no holder is registered on worker " ++ toString worker
  | outOfOrder worker expected found =>
    "deregistered holder " ++ toString found ++ " on worker " ++ toString worker
      ++ ", expected holder " ++ toString expected
  | closed worker => "storage of worker " ++ toString worker ++ " is closed"
  | foreignThread worker owner thread =>
    "storage of worker " ++ toString worker ++ " used from thread ThreadId(" ++ toString thread
      ++ "), owned by ThreadId(" ++ toString owner ++ ")"

end TaskSpace

import TaskSpace.Entry.Expansion
import TaskSpace.Reading.Parser
import TaskSpace.Script.Program
import TaskSpace.Script.Queueing
import TaskSpace.Script.Registering
import TaskSpace.Script.Session
import TaskSpace.Task.Arguments
import TaskSpace.Proofs.Memory.Placement
import TaskSpace.Proofs.Memory.Operations
import TaskSpace.Proofs.Memory.Client
import TaskSpace.Proofs.Memory.Flat
import TaskSpace.Proofs.Memory.Handles
import TaskSpace.Proofs.Memory.Account
import TaskSpace.Proofs.Registry.Chain
import TaskSpace.Proofs.Registry.Sound
import TaskSpace.Proofs.Registry.Stacks
import TaskSpace.Proofs.Machine.Tally
import TaskSpace.Proofs.Machine.Shape
import TaskSpace.Proofs.Machine.Sound
import TaskSpace.Proofs.Machine.Brackets
import TaskSpace.Proofs.Machine.Steps
import TaskSpace.Proofs.Machine.Launch
import TaskSpace.Proofs.Machine.Runs
import TaskSpace.Proofs.Machine.Attended
import TaskSpace.Proofs.Machine.Moves
import TaskSpace.Proofs.Machine.Trail
import TaskSpace.Proofs.Machine.Custody
import TaskSpace.Proofs.Machine.Lives
import TaskSpace.Proofs.Machine.Accounted
import TaskSpace.Proofs.Machine.Once
import TaskSpace.Proofs.Scheduler.Parking
import TaskSpace.Proofs.Scheduler.Queues
import TaskSpace.Proofs.Machine.Hosts
import TaskSpace.Proofs.Machine.Joins
import TaskSpace.Proofs.Machine.Counted
import TaskSpace.Proofs.Machine.Orderly
import TaskSpace.Proofs.Machine.Drained
import TaskSpace.Proofs.Machine.SpawnTree
import TaskSpace.Proofs.Plans.Tree
import TaskSpace.Proofs.Plans.Points
import TaskSpace.Proofs.Plans.Followed
import TaskSpace.Proofs.Plans.Agreement
import TaskSpace.Proofs.Memory.Addresses
import TaskSpace.Proofs.Memory.Reads
import TaskSpace.Proofs.Scheduler.Priority
import TaskSpace.Proofs.Machine.Footprint
import TaskSpace.Proofs.Scheduler.Sticky
import TaskSpace.Proofs.Machine.Homes
import TaskSpace.Proofs.Memory.Recording
import TaskSpace.Proofs.Entry.Preservation
import TaskSpace.Proofs.Scheduler.Settings
import TaskSpace.Proofs.Memory.Ownership
import TaskSpace.Proofs.Machine.Upkeep
import TaskSpace.Proofs.Machine.Staff
import TaskSpace.Proofs.Machine.Crossing
import TaskSpace.Proofs.Memory.Rollback
import TaskSpace.Proofs.Scheduler.Refusals
import TaskSpace.Proofs.Machine.Wakeups
import TaskSpace.Proofs.Machine.Nesting
import TaskSpace.Proofs.Machine.Unwinding
import TaskSpace.Proofs.Machine.Restoring
import TaskSpace.Proofs.Memory.Checks
import TaskSpace.Proofs.Memory.Owners
import TaskSpace.Proofs.Memory.AllOrNothing
import TaskSpace.Proofs.Memory.Commits
import TaskSpace.Proofs.Memory.Scatter
import TaskSpace.Proofs.Scheduler.Conservation
import TaskSpace.Proofs.Scheduler.Scripts
import TaskSpace.Proofs.Machine.Releases
import TaskSpace.Proofs.Memory.Tenure
import TaskSpace.Proofs.Machine.References
import TaskSpace.Proofs.Memory.Bounds
import TaskSpace.Proofs.Scheduler.Ticks
import TaskSpace.Proofs.Machine.Passes
import TaskSpace.Proofs.Machine.Exclusive
import TaskSpace.Proofs.Entry.Numerals
import TaskSpace.Proofs.Entry.Laws
import TaskSpace.Proofs.Entry.Requests
import TaskSpace.Proofs.Reading.Values
import TaskSpace.Proofs.Reading.Numerals
import TaskSpace.Proofs.Reading.Lists
import TaskSpace.Proofs.Entry.Acceptance

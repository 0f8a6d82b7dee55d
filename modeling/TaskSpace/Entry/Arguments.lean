import TaskSpace.Entry.Parser
import TaskSpace.Scheduler.Settings
import TaskSpace.Text.Digits

/-!
The arguments of an entry attribute: names with values, of which two names are known.
-/
namespace TaskSpace.Entry

inductive EntryKind where
  | main
  | test
deriving DecidableEq, Repr

namespace EntryKind

def name : EntryKind → String
  | main => "gasrt::main"
  | test => "gasrt::test"

def defaultFlavor : EntryKind → Flavor
  | main => .stealing
  | test => .localOnly

end EntryKind

inductive EntryError where
  /-- The name of an argument is a path of more than one word. -/
  | unknownPath
  | unknownArgument (key : String)
  | notLiteral (key : String)
  | setTwice (key : String)
  | flavorNotText
  | unknownFlavor (name : String)
  | threadsNotInteger
  /-- The digits of the number of threads are no word. -/
  | threadsNotWord (error : Text.DigitsError)
  | noThreads
  | asynchronous (kind : EntryKind)
  | hasArguments (kind : EntryKind)
  | markedAsTest
  /-- A number of threads is given, but the flavor has no pool. -/
  | noPool (kind : EntryKind)
deriving DecidableEq, Repr

def EntryError.message : EntryError → String
  | unknownPath => "expected `flavor` or `worker_threads`"
  | unknownArgument key =>
    "unknown argument `" ++ key ++ "`, expected `flavor` or `worker_threads`"
  | notLiteral key => "`" ++ key ++ "` expects a literal"
  | setTwice key => "`" ++ key ++ "` is set twice"
  | flavorNotText => "`flavor` expects a string: \"local\" or \"stealing\""
  | unknownFlavor name => "unknown flavor `" ++ name ++ "`, expected \"local\" or \"stealing\""
  | threadsNotInteger => "`worker_threads` expects an integer"
  | threadsNotWord error => error.message
  | noThreads => "`worker_threads` must be at least 1"
  | asynchronous kind => "`#[" ++ kind.name ++ "]` runs a plain function, remove `async`"
  | hasArguments kind => "`#[" ++ kind.name ++ "]` functions cannot take arguments"
  | markedAsTest => "`#[gasrt::test]` already marks the function as a test, remove this attribute"
  | noPool kind =>
    "`worker_threads` needs pool threads, use `#[" ++ kind.name ++ "(flavor = \"stealing\")]`"

/-- Why nothing is expanded: the item is no function, the arguments are no list of names with values, or
what they say is refused. The first two are errors of the parser. -/
inductive Rejection (E : Type) where
  | item (error : E)
  | list (error : E)
  | refused (error : EntryError)
deriving DecidableEq, Repr

/-! ## Meaning -/

structure EntryArguments where
  flavor : Option Flavor
  workerThreads : Option Nat
deriving DecidableEq, Repr

namespace EntryArguments

def empty : EntryArguments := ⟨none, none⟩

def flavorOfLiteral : Literal → Except EntryError Flavor
  | .text "local" => .ok .localOnly
  | .text "stealing" => .ok .stealing
  | .text name => .error (.unknownFlavor name)
  | _ => .error .flavorNotText

/-- A number of threads is an unsigned word other than zero. -/
def threadsOfLiteral : Literal → Except EntryError Nat
  | .int digits => do
    let count ← (Text.word digits).mapError .threadsNotWord
    if count = 0 then throw .noThreads
    return count
  | _ => .error .threadsNotInteger

def set (arguments : EntryArguments) (argument : Argument) : Except EntryError EntryArguments :=
  match argument.key?, argument.literal? with
  | none, _ => .error .unknownPath
  | some key, none => .error (.notLiteral key)
  | some "flavor", some literal =>
    if arguments.flavor.isSome then .error (.setTwice "flavor")
    else return { arguments with flavor := some (← flavorOfLiteral literal) }
  | some "worker_threads", some literal =>
    if arguments.workerThreads.isSome then .error (.setTwice "worker_threads")
    else return { arguments with workerThreads := some (← threadsOfLiteral literal) }
  | some key, some _ => .error (.unknownArgument key)

/-- What a list sets, from its first argument to its last. -/
def ofList (list : List Argument) : Except EntryError EntryArguments := list.foldlM set empty

end EntryArguments

end TaskSpace.Entry

import TaskSpace.Entry.Arguments

/-!
Expanding an entry attribute: the function stays what it is from outside, and its body becomes the
root task of a runtime of its own.
-/
namespace TaskSpace.Entry

structure EntryRuntime where
  flavor : Flavor
  workerThreads : Option Nat
deriving DecidableEq, Repr

namespace EntryRuntime

/-- The runtime of an entry function, unless the function is no entry function or the arguments do
not fit together. -/
def check (kind : EntryKind) (item : FunctionItem) (arguments : EntryArguments) :
    Except EntryError EntryRuntime := do
  if item.signature.asynchronous then throw (.asynchronous kind)
  if item.signature.hasArguments then throw (.hasArguments kind)
  if kind = .test && item.isTest then throw .markedAsTest
  let flavor := arguments.flavor.getD kind.defaultFlavor
  if flavor = .localOnly && arguments.workerThreads.isSome then throw (.noPool kind)
  return { flavor, workerThreads := arguments.workerThreads }

/-! ## Writing -/

open Token (word literal op group)

def path : List String → List Token
  | [] => []
  | [last] => [word last]
  | text :: texts => word text :: op "::" ++ path texts

/-- A call of a method, with its point. -/
def methodCall (name : String) (arguments : List Token) : List Token :=
  op "." ++ [word name] ++ group .parenthesis arguments

def constructor (flavor : Flavor) : String :=
  match flavor with
  | .localOnly => "new_local"
  | .stealing => "new_stealing"

def builder (runtime : EntryRuntime) : List Token :=
  path ["gasrt", "runtime", "Builder", constructor runtime.flavor] ++ group .parenthesis []
    ++ (match runtime.workerThreads with
      | some n => methodCall "worker_threads" [literal (toString n ++ "usize")]
      | none => [])
    ++ methodCall "try_build" []
    ++ methodCall "expect" [literal "\"failed to build the gasrt runtime\""]

def run (runtime : EntryRuntime) : List Token :=
  op "#" ++ group .bracket ([word "allow"] ++ group .parenthesis (path ["clippy", "expect_used"]))
    ++ [word "let", word "runtime"] ++ op "=" ++ runtime.builder ++ op ";"
    ++ [word "runtime"] ++ methodCall "block_on" [word "body"]

end EntryRuntime

namespace EntryKind

open Token (op)

/-- The attributes that an entry attribute adds: the one of tests marks a test. -/
def marks : EntryKind → List Attribute
  | main => []
  | test =>
    [{ style := .outer
       content := op "::" ++ EntryRuntime.path ["core", "prelude", "v1", "test"]
       path? := some ["core", "prelude", "v1", "test"] }]

end EntryKind

namespace FunctionItem

open Token (word op group)

/-- The closure that holds the statements of a function and returns what the function returns. -/
def closure (item : FunctionItem) : List Token :=
  [word "move"] ++ op "||" ++ op "->" ++ item.signature.output.getD (group .parenthesis [])
    ++ group .brace item.statements

/-- The function that runs the statements on a runtime. All its attributes stand before it. -/
def expand (item : FunctionItem) (kind : EntryKind) (runtime : EntryRuntime) : List Token :=
  (kind.marks ++ item.attributes.map Attribute.outside).flatMap Attribute.tokens
    ++ item.visibility ++ item.signature.tokens
    ++ group .brace ([word "let", word "body"] ++ op "=" ++ item.closure ++ op ";" ++ runtime.run)

end FunctionItem

namespace Parser

variable {E : Type} (parser : Parser E)

/-- The expanded function. The item is read before the arguments, all arguments before the first is looked
at, and what they say before the item is checked. -/
def expand (kind : EntryKind) (arguments item : List Token) : Except (Rejection E) (List Token) := do
  let function ← (parser.function item).mapError .item
  let list ← (parser.arguments arguments).mapError .list
  let arguments ← (EntryArguments.ofList list).mapError .refused
  let runtime ← (EntryRuntime.check kind function arguments).mapError .refused
  return function.expand kind runtime

def errorOf : Rejection E → E
  | .item error | .list error => error
  | .refused error => parser.error error.message

/-- What stands in the place of an item with an entry attribute. A rejected item stays as it is, and the
rejection is reported behind it. -/
def expansion (kind : EntryKind) (arguments item : List Token) : List Token :=
  match parser.expand kind arguments item with
  | .ok tokens => tokens
  | .error rejection => item ++ parser.report (parser.errorOf rejection)

section

variable {parser} {kind : EntryKind} {arguments tokens : List Token} {item : FunctionItem}
  {list : List Argument} {read : EntryArguments} {runtime : EntryRuntime} {error : EntryError} {e : E}

theorem expand_of_function_error (hitem : parser.function tokens = .error e) :
    parser.expand kind arguments tokens = .error (.item e) := by
  simp only [expand, hitem]
  rfl

theorem expand_of_arguments_error (hitem : parser.function tokens = .ok item)
    (hlist : parser.arguments arguments = .error e) : parser.expand kind arguments tokens = .error (.list e) := by
  simp only [expand, hitem, hlist]
  rfl

/-- Once the parts are read, the arguments and the check decide. -/
theorem expand_eq (hitem : parser.function tokens = .ok item) (hlist : parser.arguments arguments = .ok list) :
    parser.expand kind arguments tokens = do
      let read ← (EntryArguments.ofList list).mapError .refused
      let runtime ← (EntryRuntime.check kind item read).mapError .refused
      return item.expand kind runtime := by
  simp only [expand, hitem, hlist]
  rfl

theorem expand_of_ofList_error (hitem : parser.function tokens = .ok item)
    (hlist : parser.arguments arguments = .ok list) (hread : EntryArguments.ofList list = .error error) :
    parser.expand kind arguments tokens = .error (.refused error) := by
  rw [expand_eq hitem hlist, hread]
  rfl

/-- Once the arguments are accepted, the check decides. -/
theorem expand_of_ofList (hitem : parser.function tokens = .ok item)
    (hlist : parser.arguments arguments = .ok list) (hread : EntryArguments.ofList list = .ok read) :
    parser.expand kind arguments tokens = do
      let runtime ← (EntryRuntime.check kind item read).mapError .refused
      return item.expand kind runtime := by
  rw [expand_eq hitem hlist, hread]
  rfl

theorem expand_of_check_error (hitem : parser.function tokens = .ok item)
    (hlist : parser.arguments arguments = .ok list) (hread : EntryArguments.ofList list = .ok read)
    (hcheck : EntryRuntime.check kind item read = .error error) :
    parser.expand kind arguments tokens = .error (.refused error) := by
  rw [expand_of_ofList hitem hlist hread, hcheck]
  rfl

theorem expand_of_check (hitem : parser.function tokens = .ok item)
    (hlist : parser.arguments arguments = .ok list) (hread : EntryArguments.ofList list = .ok read)
    (hcheck : EntryRuntime.check kind item read = .ok runtime) :
    parser.expand kind arguments tokens = .ok (item.expand kind runtime) := by
  rw [expand_of_ofList hitem hlist hread, hcheck]
  rfl

end

end Parser

end TaskSpace.Entry

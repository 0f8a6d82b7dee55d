import TaskSpace.Proofs.Entry.Requests
import TaskSpace.Proofs.Reading.Lists

/-!
# When an entry attribute expands

The arguments of an entry attribute ask for a runtime. A function is expanded exactly if it can be an entry, the
arguments are taken, and the threads that they ask for fit the flavor. Everything else is rejected, for the first
reason there is.
-/

namespace TaskSpace.Entry

/-! ## Functions and runtimes -/

/-- A function that an entry attribute can expand. -/
structure FunctionItem.Admits (kind : EntryKind) (item : FunctionItem) : Prop where
  synchronous : item.signature.asynchronous = false
  argumentless : item.signature.hasArguments = false
  unmarked : kind = .test → item.isTest = false

theorem FunctionItem.Admits.not_marked {kind : EntryKind} {item : FunctionItem} (h : item.Admits kind) :
    ¬(kind = .test && item.isTest) = true := by
  simpa using h.unmarked

namespace EntryArguments

/-- The runtime that arguments ask for. -/
def runtime (kind : EntryKind) (read : EntryArguments) : EntryRuntime where
  flavor := read.flavor.getD kind.defaultFlavor
  workerThreads := read.workerThreads

/-- Threads are asked for only with a flavor that has a pool. -/
def Fits (kind : EntryKind) (read : EntryArguments) : Prop :=
  read.workerThreads.isSome = true → (read.runtime kind).flavor = .stealing

end EntryArguments

namespace EntryRuntime

open Token (literal group)

variable {kind : EntryKind} {item : FunctionItem} {read : EntryArguments} {error : EntryError}

/-- Why a function is not expanded with arguments. -/
inductive Refuses (kind : EntryKind) (item : FunctionItem) (read : EntryArguments) : EntryError → Prop where
  | asynchronous (asynchronous : item.signature.asynchronous = true) : Refuses kind item read (.asynchronous kind)
  | hasArguments (synchronous : item.signature.asynchronous = false) (arguments : item.signature.hasArguments = true) :
    Refuses kind item read (.hasArguments kind)
  | markedAsTest (synchronous : item.signature.asynchronous = false) (argumentless : item.signature.hasArguments = false)
    (test : kind = .test) (marked : item.isTest = true) : Refuses kind item read .markedAsTest
  | noPool (admits : item.Admits kind) (flavor : (read.runtime kind).flavor = .localOnly)
    (threads : read.workerThreads.isSome = true) : Refuses kind item read (.noPool kind)

/-- The call that makes a builder of a flavor, with a number of threads if there is one. -/
def Builds (runtime : EntryRuntime) (builder : List Token) : Prop :=
  ∃ constructor calls,
    builder = path ["gasrt", "runtime", "Builder", constructor] ++ group .parenthesis [] ++ calls
      ++ methodCall "try_build" [] ++ methodCall "expect" [literal "\"failed to build the gasrt runtime\""] ∧
    constructor = (match runtime.flavor with | .localOnly => "new_local" | .stealing => "new_stealing") ∧
    match runtime.workerThreads with
    | none => calls = []
    | some count => ∃ text, Numeral text count "usize" ∧ calls = methodCall "worker_threads" [literal text]

theorem builds_builder (runtime : EntryRuntime) : runtime.Builds runtime.builder := by
  obtain ⟨flavor, threads⟩ := runtime
  refine ⟨_, _, rfl, by cases flavor <;> rfl, ?_⟩
  cases threads with
  | none => rfl
  | some count => exact ⟨_, numeral_usize count, rfl⟩

theorem check_eq (kind : EntryKind) (item : FunctionItem) (read : EntryArguments) :
    check kind item read =
      if item.signature.asynchronous then .error (.asynchronous kind)
      else if item.signature.hasArguments then .error (.hasArguments kind)
      else if kind = .test && item.isTest then .error .markedAsTest
      else if (read.runtime kind).flavor = .localOnly && read.workerThreads.isSome then .error (.noPool kind)
      else .ok (read.runtime kind) := by
  cases ha : item.signature.asynchronous <;> cases hh : item.signature.hasArguments <;>
    simp [check, ha, hh, throw, throwThe, MonadExceptOf.throw, bind, Except.bind]
  rfl

theorem check_of_fits (hadmits : item.Admits kind) (hfits : read.Fits kind) :
    check kind item read = .ok (read.runtime kind) := by
  have hpool : ¬((read.runtime kind).flavor = .localOnly && read.workerThreads.isSome) = true := by
    rw [Bool.and_eq_true, decide_eq_true_eq]
    exact fun ⟨hlocal, hthreads⟩ => absurd (hlocal.symm.trans (hfits hthreads)) nofun
  simp only [check_eq, hadmits.synchronous, hadmits.argumentless, if_neg hadmits.not_marked, if_neg hpool]
  rfl

theorem check_of_refuses (h : Refuses kind item read error) : check kind item read = .error error := by
  rw [check_eq]
  cases h with
  | asynchronous hasync => simp [hasync]
  | hasArguments hsync harguments => simp [hsync, harguments]
  | markedAsTest hsync hnone htest hmarked => simp [hsync, hnone, htest, hmarked]
  | noPool hadmits hflavor hthreads =>
    simp only [hadmits.synchronous, hadmits.argumentless, if_neg hadmits.not_marked, hflavor, hthreads]
    rfl

theorem fits_or_refuses (kind : EntryKind) (item : FunctionItem) (read : EntryArguments) :
    (item.Admits kind ∧ read.Fits kind) ∨ ∃ error, Refuses kind item read error := by
  cases hasync : item.signature.asynchronous with
  | true => exact .inr ⟨_, .asynchronous hasync⟩
  | false =>
    cases harguments : item.signature.hasArguments with
    | true => exact .inr ⟨_, .hasArguments hasync harguments⟩
    | false =>
      by_cases hmarked : kind = .test ∧ item.isTest = true
      · exact .inr ⟨_, .markedAsTest hasync harguments hmarked.1 hmarked.2⟩
      · have hadmits : item.Admits kind :=
          ⟨hasync, harguments, fun htest => Bool.eq_false_iff.2 fun hmark => hmarked ⟨htest, hmark⟩⟩
        cases hthreads : read.workerThreads.isSome with
        | false => exact .inl ⟨hadmits, fun hsome => absurd (hthreads.symm.trans hsome) nofun⟩
        | true =>
          cases hflavor : (read.runtime kind).flavor with
          | localOnly => exact .inr ⟨_, .noPool hadmits hflavor hthreads⟩
          | stealing => exact .inl ⟨hadmits, fun _ => hflavor⟩

end EntryRuntime

/-! ## Expansions -/

namespace Parser

variable {E : Type} {parser : Parser E} {literal : String → Literal} {kind : EntryKind}
  {arguments tokens : List Token} {rejection : Rejection E} {item : FunctionItem} {read : EntryArguments}

/-- Why nothing is expanded: the first reason there is, in the order in which the parts are looked at. -/
inductive Fails (parser : Parser E) (literal : String → Literal) (kind : EntryKind)
    (arguments tokens : List Token) : Rejection E → Prop where
  | item {error : E} (function : parser.function tokens = .error error) :
    Fails parser literal kind arguments tokens (.item error)
  | list {item : FunctionItem} {error : E} (function : parser.function tokens = .ok item)
    (list : parser.arguments arguments = .error error) : Fails parser literal kind arguments tokens (.list error)
  | argument {item : FunctionItem} {list : List Argument} {error : EntryError}
    (function : parser.function tokens = .ok item) (list_eq : parser.arguments arguments = .ok list)
    (offence : FirstOffence [] list error) : Fails parser literal kind arguments tokens (.refused error)
  | check {item : FunctionItem} {read : EntryArguments} {error : EntryError}
    (function : parser.function tokens = .ok item) (requests : Requests literal arguments read)
    (refuses : EntryRuntime.Refuses kind item read error) :
    Fails parser literal kind arguments tokens (.refused error)

theorem expand_of_fits (h : parser.Reads literal) (hitem : parser.function tokens = .ok item)
    (hrequests : Requests literal arguments read) (hadmits : item.Admits kind) (hfits : read.Fits kind) :
    parser.expand kind arguments tokens = .ok (item.expand kind (read.runtime kind)) := by
  obtain ⟨list, hlist, hread⟩ := h.requests_iff.1 hrequests
  exact expand_of_check hitem hlist hread (EntryRuntime.check_of_fits hadmits hfits)

theorem expand_of_fails (h : parser.Reads literal) (hfails : parser.Fails literal kind arguments tokens rejection) :
    parser.expand kind arguments tokens = .error rejection := by
  cases hfails with
  | item hitem => exact expand_of_function_error hitem
  | list hitem hlist => exact expand_of_arguments_error hitem hlist
  | argument hitem hlist hoffence =>
    exact expand_of_ofList_error hitem hlist (EntryArguments.ofList_eq_error.2 hoffence)
  | check hitem hrequests hrefuses =>
    obtain ⟨list, hlist, hread⟩ := h.requests_iff.1 hrequests
    exact expand_of_check_error hitem hlist hread (EntryRuntime.check_of_refuses hrefuses)

/-- A function is expanded with what its attribute asks for, or there is a reason against it. -/
theorem fits_or_fails (h : parser.Reads literal) (kind : EntryKind) (arguments tokens : List Token) :
    (∃ item read, parser.function tokens = .ok item ∧ Requests literal arguments read ∧ item.Admits kind ∧
      read.Fits kind) ∨ ∃ rejection, parser.Fails literal kind arguments tokens rejection := by
  cases hitem : parser.function tokens with
  | error error => exact .inr ⟨_, .item hitem⟩
  | ok item =>
    cases hlist : parser.arguments arguments with
    | error error => exact .inr ⟨_, .list hitem hlist⟩
    | ok list =>
      cases hread : EntryArguments.ofList list with
      | error error => exact .inr ⟨_, .argument hitem hlist (EntryArguments.ofList_eq_error.1 hread)⟩
      | ok read =>
        have hrequests : Requests literal arguments read := h.requests_iff.2 ⟨list, hlist, hread⟩
        rcases EntryRuntime.fits_or_refuses kind item read with ⟨hadmits, hfits⟩ | ⟨error, hrefuses⟩
        · exact .inl ⟨item, read, rfl, hrequests, hadmits, hfits⟩
        · exact .inr ⟨_, .check hitem hrequests hrefuses⟩

theorem expand_swap (h : parser.Reads literal) {first second swapped : List Token} {request other : Request}
    (hfirst : Names literal first request) (hsecond : Names literal second other)
    (hlist : CommaList [first, second] arguments) (hswapped : CommaList [second, first] swapped) :
    parser.expand kind swapped tokens = parser.expand kind arguments tokens := by
  obtain ⟨list, list', hread, hread', hsame⟩ := h.ofList_swap hfirst hsecond hlist hswapped
  cases hitem : parser.function tokens with
  | error error => rw [expand_of_function_error hitem, expand_of_function_error hitem]
  | ok item => rw [expand_eq hitem hread, expand_eq hitem hread', hsame]

/-- `fn sums() {}` -/
def sums : List Token := [.word "fn", .word "sums"] ++ Token.group .parenthesis [] ++ Token.group .brace []

/-- `worker_threads = 0x1_0u8` -/
def sixteen : List Token := [.word "worker_threads"] ++ Token.op "=" ++ [.literal "0x1_0u8"]

/-- `flavor = r"stealing"` -/
def rawStealing : List Token := [.word "flavor"] ++ Token.op "=" ++ [.literal "r\"stealing\""]

theorem names_sixteen (literal : String → Literal) : Names literal sixteen (.workerThreads 16) := by
  have hvalue : Reading.Literal.ofText "0x1_0u8" = .int false 16 "u8" := by decide +kernel
  exact .workerThreads (Reading.Literal.ofText_eq_int.1 hvalue).2 (by decide) (by decide)

theorem names_rawStealing : Names Reading.literalOf rawStealing (.flavor .stealing) := .stealing (by decide +kernel)

end Parser

end TaskSpace.Entry

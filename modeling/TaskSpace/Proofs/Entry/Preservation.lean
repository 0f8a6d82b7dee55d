import TaskSpace.Reading.Parser

/-!
# What an entry attribute keeps of a function

An entry attribute moves the attributes of a body to the function and the statements into a closure,
and adds what runs the closure. Every other token of the function is where it was. Where a function is
rejected, nothing of it is touched.

An attribute sees of a function what a parser says of it. What the expansion has of the function therefore
depends on the parser: on the parts being those that the function is written with (`Parser.PrintsBack`), and on
its attributes being in their order (`Parser.InOrder`).
-/

namespace TaskSpace.Entry

open Token (word op group)

namespace Token

/-- A token, whatever follows it without a blank. -/
def unspaced : Token → Token
  | punct c _ => punct c false
  | token => token

end Token

/-! ## Attributes -/

namespace FunctionItem

variable {kind : EntryKind} {item : FunctionItem} {runtime : EntryRuntime}

/-- A function that is made a test was none before. -/
theorem isTest_of_check {arguments : EntryArguments} (h : EntryRuntime.check .test item arguments = .ok runtime) :
    item.isTest = false := by
  cases ht : item.isTest with
  | false => rfl
  | true =>
    cases ha : item.signature.asynchronous <;> cases hh : item.signature.hasArguments <;>
      simp [EntryRuntime.check, ha, hh, ht, throw, throwThe, MonadExceptOf.throw, bind, Except.bind] at h

/-- Behind the attribute that is added no attribute of the function marks a test. -/
theorem filter_marks (h : item.isTest = false) :
    (EntryKind.test.marks ++ item.attributes.map Attribute.outside).filter Attribute.isTest =
      EntryKind.test.marks := by
  have hnone : (item.attributes.map Attribute.outside).filter Attribute.isTest = [] := by
    rw [List.filter_eq_nil_iff, List.forall_mem_map]
    exact fun a ha => List.any_eq_false.1 h a ha
  rw [List.filter_append, hnone, List.append_nil]
  rfl

end FunctionItem

/-! ## Expansions -/

namespace Parser

variable {E : Type} {parser : Parser E} {kind : EntryKind} {arguments tokens : List Token}

/-- A function is written with the tokens that it was read from, but for the blanks between them. -/
def PrintsBack (parser : Parser E) (tokens : List Token) : Prop :=
  ∀ item, parser.function tokens = .ok item → item.tokens.map Token.unspaced = tokens.map Token.unspaced

/-- The attributes of a function come in the order in which they stand, those of its body last. -/
def InOrder (parser : Parser E) (tokens : List Token) : Prop :=
  ∀ item, parser.function tokens = .ok item → item.attributes = item.outer ++ item.inner

/-- Why an entry attribute does not expand a function. -/
inductive Rejects (parser : Parser E) (kind : EntryKind) (arguments tokens : List Token) : Rejection E → Prop where
  | item {error : E} (function : parser.function tokens = .error error) :
    Rejects parser kind arguments tokens (.item error)
  | list {item : FunctionItem} {error : E} (function : parser.function tokens = .ok item)
    (list : parser.arguments arguments = .error error) : Rejects parser kind arguments tokens (.list error)
  | argument {item : FunctionItem} {list : List Argument} {error : EntryError}
    (function : parser.function tokens = .ok item) (list_eq : parser.arguments arguments = .ok list)
    (read : EntryArguments.ofList list = .error error) : Rejects parser kind arguments tokens (.refused error)
  | check {item : FunctionItem} {list : List Argument} {read : EntryArguments} {error : EntryError}
    (function : parser.function tokens = .ok item) (list_eq : parser.arguments arguments = .ok list)
    (read_eq : EntryArguments.ofList list = .ok read) (check : EntryRuntime.check kind item read = .error error) :
    Rejects parser kind arguments tokens (.refused error)

/-- What the expansion of a function has of it, its parts being those of `item`. -/
structure Preserves (kind : EntryKind) (runtime : EntryRuntime) (tokens : List Token) (item : FunctionItem)
    (expansion : List Token) : Prop where
  /-- The parts are all of the function, in order. -/
  parts : tokens.map Token.unspaced =
    (item.outer.flatMap Attribute.tokens ++ item.visibility ++ item.signature.tokens
      ++ group .brace (item.inner.flatMap Attribute.tokens ++ item.statements)).map Token.unspaced
  expansion : expansion =
    (kind.marks ++ (item.outer ++ item.inner).map Attribute.outside).flatMap Attribute.tokens
      ++ item.visibility ++ item.signature.tokens
      ++ group .brace ([word "let", word "body"] ++ op "="
        ++ ([word "move"] ++ op "||" ++ op "->" ++ item.signature.output.getD (group .parenthesis [])
          ++ group .brace item.statements)
        ++ op ";" ++ runtime.run)
  /-- A test is marked once, by the attribute that is added. -/
  marked : kind = .test →
    (kind.marks ++ (item.outer ++ item.inner).map Attribute.outside).filter Attribute.isTest = kind.marks

theorem expand_of_rejects {rejection : Rejection E} (h : parser.Rejects kind arguments tokens rejection) :
    parser.expand kind arguments tokens = .error rejection := by
  cases h with
  | item hitem => exact expand_of_function_error hitem
  | list hitem hlist => exact expand_of_arguments_error hitem hlist
  | argument hitem hlist hread => exact expand_of_ofList_error hitem hlist hread
  | check hitem hlist hread hcheck => exact expand_of_check_error hitem hlist hread hcheck

/-- A function is rejected, or each part is read and they fit together. -/
theorem rejects_or_checks (parser : Parser E) (kind : EntryKind) (arguments tokens : List Token) :
    (∃ rejection, parser.Rejects kind arguments tokens rejection) ∨
      ∃ item list read runtime, parser.function tokens = .ok item ∧ parser.arguments arguments = .ok list ∧
        EntryArguments.ofList list = .ok read ∧ EntryRuntime.check kind item read = .ok runtime := by
  cases hitem : parser.function tokens with
  | error error => exact .inl ⟨_, .item hitem⟩
  | ok item =>
    cases hlist : parser.arguments arguments with
    | error error => exact .inl ⟨_, .list hitem hlist⟩
    | ok list =>
      cases hread : EntryArguments.ofList list with
      | error error => exact .inl ⟨_, .argument hitem hlist hread⟩
      | ok read =>
        cases hcheck : EntryRuntime.check kind item read with
        | error error => exact .inl ⟨_, .check hitem hlist hread hcheck⟩
        | ok runtime => exact .inr ⟨item, list, read, runtime, rfl, rfl, hread, hcheck⟩

theorem preserves_expand {item : FunctionItem} {read : EntryArguments} {runtime : EntryRuntime}
    (hprints : parser.PrintsBack tokens) (horder : parser.InOrder tokens) (hitem : parser.function tokens = .ok item)
    (hcheck : EntryRuntime.check kind item read = .ok runtime) :
    Preserves kind runtime tokens item (item.expand kind runtime) where
  parts := (hprints item hitem).symm
  expansion := by rw [← horder item hitem]; rfl
  marked := by
    rintro rfl
    rw [← horder item hitem]
    exact FunctionItem.filter_marks (FunctionItem.isTest_of_check hcheck)

/-- A function with attributes of both kinds, a raw name, angles that close together, a clause and nested groups:
`#[inline] pub(crate) fn r#main() -> Option<Option<u8>> where u8: Copy { #![doc = "entry"] let x = (1, [2]); None }`. -/
def nested : List Token :=
  op "#" ++ group .bracket [word "inline"] ++ [word "pub"] ++ group .parenthesis [word "crate"]
    ++ [word "fn", word "r#main"] ++ group .parenthesis [] ++ op "->"
    ++ [word "Option"] ++ op "<" ++ [word "Option"] ++ op "<" ++ [word "u8"] ++ op ">>"
    ++ [word "where", word "u8"] ++ op ":" ++ [word "Copy"]
    ++ group .brace (op "#!" ++ group .bracket ([word "doc"] ++ op "=" ++ [.literal "\"entry\""])
      ++ [word "let", word "x"] ++ op "="
      ++ group .parenthesis ([.literal "1"] ++ op "," ++ group .bracket [.literal "2"]) ++ op ";" ++ [word "None"])

/-- `flavor = "stealing"` -/
def stealing : List Token := [word "flavor"] ++ op "=" ++ [.literal "\"stealing\""]

end Parser

end TaskSpace.Entry

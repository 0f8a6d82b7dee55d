import TaskSpace.Entry.Expansion
import TaskSpace.Proofs.Entry.Numerals

/-!
# What a parser of arguments keeps to

The arguments of an entry attribute are names with values, and commas between them. A parser reads an argument
that is a known word with a literal where these stand and nothing else, and it gives a whole number as its value in
base ten. Nothing is asked of other arguments, or of the errors of the parser.
-/

namespace TaskSpace.Entry

/-- Tokens are entries with commas between them; one may stand behind the last. -/
inductive CommaList : List (List Token) → List Token → Prop
  | nil : CommaList [] []
  | last (entry : List Token) : CommaList [entry] entry
  | cons (entry : List Token) (joint : Bool) {entries : List (List Token)} {tokens : List Token} :
    CommaList entries tokens → CommaList (entry :: entries) (entry ++ .punct ',' joint :: tokens)

/-- The literal is a text, or a whole number without a minus sign. -/
def Literal.Plain : Literal → Prop
  | text _ => True
  | int digits => digits.toList.head? ≠ some '-'
  | other => False

namespace Argument

/-- The words that arguments are known by. -/
def keys : List String := ["flavor", "worker_threads"]

/-- An argument that is a known word with a text, or with a number that has no sign. -/
def Plain (argument : Argument) : Prop :=
  ∃ key value, argument = ⟨some key, some value⟩ ∧ key ∈ keys ∧ value.Plain

/-- A word with a literal, and what is read of it. -/
inductive Writes (literal : String → Literal) : List Token → Argument → Prop
  | mk (key : String) (joint : Bool) (text : String) :
    Writes literal [.word key, .punct '=' joint, .literal text] ⟨some key, some (literal text)⟩

end Argument

namespace Parser

variable {E : Type}

/-- A parser reads lists of arguments, of which `literal` tells what a literal stands for. -/
structure Reads (parser : Parser E) (literal : String → Literal) : Prop where
  /-- Lists of known words with texts and numbers are those that are written as such. -/
  arguments {list : List Argument} (tokens : List Token) (plain : ∀ argument ∈ list, argument.Plain) :
    parser.arguments tokens = .ok list ↔
      ∃ entries, CommaList entries tokens ∧ List.Forall₂ (Argument.Writes literal) entries list
  /-- A whole number without a minus sign is one as it is written, by its value in base ten. -/
  int (text : String) {digits : String} (unsigned : digits.toList.head? ≠ some '-') :
    literal text = .int digits ↔ ∃ value suffix, Numeral text value suffix ∧ digits = toString value

end Parser

end TaskSpace.Entry

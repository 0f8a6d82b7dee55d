import TaskSpace.Word

/-!
Characters that are digits, and the words that are written in base ten.
-/
namespace TaskSpace.Text

def isDigit (c : Char) : Bool := '0' ≤ c && c ≤ '9'

def isHexDigit (c : Char) : Bool :=
  isDigit c || ('a' ≤ c && c ≤ 'f') || ('A' ≤ c && c ≤ 'F')

def digitValue (c : Char) : Nat :=
  if isDigit c then c.toNat - '0'.toNat
  else if 'a' ≤ c then c.toNat - 'a'.toNat + 10
  else c.toNat - 'A'.toNat + 10

/-- Why a text is no word in base ten. -/
inductive DigitsError where
  | empty
  | invalidDigit
  | tooLarge
deriving DecidableEq, Repr

def DigitsError.message : DigitsError → String
  | empty => "cannot parse integer from empty string"
  | invalidDigit => "invalid digit found in string"
  | tooLarge => "number too large to fit in target type"

/-- A word with one more digit behind it. -/
def addDigit (value : Nat) (c : Char) : Except DigitsError Nat :=
  if isDigit c then
    if value * 10 + digitValue c < Word.bound then .ok (value * 10 + digitValue c) else .error .tooLarge
  else .error .invalidDigit

/-- The word that a text is in base ten. A plus sign may stand before its digits. -/
def word (text : String) : Except DigitsError Nat :=
  match text.toList with
  | [] => .error .empty
  | ['+'] => .error .invalidDigit
  | '+' :: digits | digits => digits.foldlM addDigit 0

end TaskSpace.Text

import TaskSpace.Entry.Parser
import TaskSpace.Reading.Lexer

/-!
What literals stand for.
-/
namespace TaskSpace.Reading

open Entry (Token Delimiter)

/-- A literal, as far as readers tell literals apart. -/
inductive Literal where
  | text (value : String)
  /-- A whole number; one with a minus sign is negative even if it is zero. -/
  | int (negative : Bool) (value : Nat) (suffix : String)
  /-- Bytes, characters, truth values and numbers with a point or an exponent. -/
  | other
deriving DecidableEq, Repr

namespace Literal

open Lexer (Chars)
open Text (isDigit isHexDigit digitValue)

/-! ## Text -/

/-- The characters of a literal with escapes, after its opening quote. -/
def cookedValue : (limit : Nat) → Chars → Chars
  | 0, _ => []
  | limit + 1, input =>
    match input with
    | '"' :: _ | [] => []
    | '\r' :: rest => '\n' :: cookedValue limit (rest.drop 1)
    | '\\' :: 'x' :: a :: b :: rest =>
      Char.ofNat (16 * digitValue a + digitValue b) :: cookedValue limit rest
    | '\\' :: 'u' :: rest =>
      match Lexer.codePoint rest with
      | some (value, rest) => Char.ofNat value :: cookedValue limit rest
      | none => []
    | '\\' :: 'n' :: rest => '\n' :: cookedValue limit rest
    | '\\' :: 'r' :: rest => '\r' :: cookedValue limit rest
    | '\\' :: 't' :: rest => '\t' :: cookedValue limit rest
    | '\\' :: '0' :: rest => '\x00' :: cookedValue limit rest
    | '\\' :: '\n' :: rest | '\\' :: '\r' :: rest =>
      cookedValue limit (rest.dropWhile fun c => c = ' ' || c = '\t' || c = '\n' || c = '\r')
    | '\\' :: c :: rest => c :: cookedValue limit rest
    | c :: rest => c :: cookedValue limit rest

/-- The characters of a literal without escapes, after its opening quote. -/
def rawValue (signs : Nat) : Chars → Chars
  | [] => []
  | c :: rest =>
    if c = '"' && Lexer.startsWith rest (String.ofList (List.replicate signs '#')) then []
    else c :: rawValue signs rest

/-! ## Whole numbers -/

/-- Whether a letter that starts an exponent is followed by one. -/
def hasExponent (digits : Bool) : Chars → Bool
  | [] => digits
  | c :: rest =>
    if c = '_' then hasExponent digits rest
    else if c = '-' || c = '+' then true
    else if isDigit c then hasExponent true rest
    else digits

/-- The value of digits and what follows them, unless they are part of another kind of number. -/
def digits (base : Nat) (seen : Bool) (value : Nat) : Chars → Option (Nat × Chars)
  | [] => if seen then some (value, []) else none
  | c :: rest =>
    if isDigit c || (base > 10 && isHexDigit c) then
      if digitValue c < base then digits base true (value * base + digitValue c) rest else none
    else if c = '_' then digits base seen value rest
    else if base = 10 && c = '.' then none
    else if base = 10 && (c = 'e' || c = 'E') && hasExponent false rest then none
    else if seen then some (value, c :: rest)
    else none

def natural? (input : Chars) : Option (Nat × String) := do
  let (value, rest) ← match input with
    | '0' :: 'x' :: rest => digits 16 false 0 rest
    | '0' :: 'o' :: rest => digits 8 false 0 rest
    | '0' :: 'b' :: rest => digits 2 false 0 rest
    | _ => digits 10 false 0 input
  if rest.isEmpty || Lexer.name rest = some [] then some (value, String.ofList rest) else none

/-! ## Classes -/

def ofNumber (negative : Bool) (input : Chars) : Literal :=
  match natural? input with
  | some (value, suffix) => .int negative value suffix
  | none => .other

def ofText (text : String) : Literal :=
  match text.toList with
  | '"' :: rest => .text (String.ofList (cookedValue (rest.length + 1) rest))
  | 'r' :: rest =>
    let signs := (rest.takeWhile (· = '#')).length
    .text (String.ofList (rawValue signs (rest.drop (signs + 1))))
  | input => ofNumber false input

/-- What a literal stands for after a minus sign, if a sign may stand there. -/
def negative? (text : String) : Option Literal :=
  if text.toList.head?.any isDigit then some (ofNumber true text.toList) else none

/-- What arguments see of a literal. -/
def shown : Literal → Entry.Literal
  | text value => .text value
  | int negative value _ => .int ((if negative then "-" else "") ++ toString value)
  | other => .other

def ofToken? : Token → Option Literal
  | .literal written => some (ofText written)
  | .word written => if written = "true" || written = "false" then some .other else none
  | _ => none

end Literal

end TaskSpace.Reading

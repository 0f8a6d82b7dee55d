/-!
Tokens: what a source text is made of. Groups are flat: a delimiter opens, and the matching one
closes.
-/
namespace TaskSpace.Entry

inductive Delimiter where
  | parenthesis
  | bracket
  | brace
deriving DecidableEq, Repr

namespace Delimiter

def opening : Delimiter → Char
  | parenthesis => '('
  | bracket => '['
  | brace => '{'

def closing : Delimiter → Char
  | parenthesis => ')'
  | bracket => ']'
  | brace => '}'

def ofOpening? (c : Char) : Option Delimiter :=
  [parenthesis, bracket, brace].find? fun d => d.opening = c

def ofClosing? (c : Char) : Option Delimiter :=
  [parenthesis, bracket, brace].find? fun d => d.closing = c

end Delimiter

inductive Token where
  /-- An identifier or a keyword, with its `r#` if it is raw. -/
  | word (text : String)
  /-- One character of punctuation; `joint` if the next one follows without a blank. The quote of a
  lifetime is joint with its name. -/
  | punct (c : Char) (joint : Bool)
  /-- A literal, as it is written. -/
  | literal (text : String)
  | opening (d : Delimiter)
  | closing (d : Delimiter)
deriving DecidableEq, Repr

namespace Token

def text : Token → String
  | word text | literal text => text
  | punct c _ => String.singleton c
  | opening d => String.singleton d.opening
  | closing d => String.singleton d.closing

/-- Tokens as a text: one blank stands between each two. -/
def join (tokens : List Token) : String := " ".intercalate (tokens.map text)

/-- The characters of an operator, joint up to the last. -/
def op (text : String) : List Token :=
  match text.toList.reverse with
  | [] => []
  | last :: before => (before.reverse.map fun c => punct c true) ++ [punct last false]

def group (d : Delimiter) (tokens : List Token) : List Token :=
  opening d :: tokens ++ [closing d]

end Token

end TaskSpace.Entry

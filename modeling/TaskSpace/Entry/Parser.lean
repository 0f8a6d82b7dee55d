import TaskSpace.Entry.Token

/-!
What entry attributes see of the functions and the arguments that they are given. Taking these apart is the
work of a parser of the language that they are written in. Which parser it is stays open: attributes ask it
for no more than is said here, and they are expanded with any.
-/
namespace TaskSpace.Entry

/-- A literal, as far as arguments tell literals apart. -/
inductive Literal where
  | text (value : String)
  /-- A whole number: its digits in base ten, with a minus sign before them if it has one. -/
  | int (digits : String)
  | other
deriving DecidableEq, Repr

/-- A name with a value. -/
structure Argument where
  /-- The name, if it is one word. -/
  key? : Option String
  /-- The value, if it is a literal. -/
  literal? : Option Literal
deriving DecidableEq, Repr

/-! ## Functions -/

/-- An attribute stands before what it is about, or inside. -/
inductive AttributeStyle where
  | outer
  | inner
deriving DecidableEq, Repr

structure Attribute where
  style : AttributeStyle
  /-- What stands in its brackets. -/
  content : List Token
  /-- The words of the path that it is, if it is nothing else. -/
  path? : Option (List String)
deriving DecidableEq, Repr

namespace Attribute

def sign : AttributeStyle → List Token
  | .outer => Token.op "#"
  | .inner => Token.op "#" ++ Token.op "!"

def tokens (a : Attribute) : List Token :=
  sign a.style ++ Token.group .bracket a.content

/-- An attribute as it is written before what it is about. -/
def outside (a : Attribute) : Attribute := { a with style := .outer }

/-- Whether an attribute is the one that marks tests, alone or with the path that it is found at. -/
def isTest (a : Attribute) : Bool :=
  match a.path? with
  | some ["test"] | some ["core", "prelude", _, "test"] | some ["std", "prelude", _, "test"] => true
  | _ => false

end Attribute

structure Signature where
  /-- All up to the arguments, and these in their parentheses. -/
  head : List Token
  asynchronous : Bool
  hasArguments : Bool
  /-- The type behind the arrow, if there is one. -/
  output : Option (List Token)
  /-- The clause behind that, which may be empty. -/
  clause : List Token
deriving DecidableEq, Repr

def Signature.tokens (signature : Signature) : List Token :=
  signature.head
    ++ (match signature.output with
      | some type => Token.op "->" ++ type
      | none => [])
    ++ signature.clause

/-- A function with a body. Its attributes stand before it, or first in the body. -/
structure FunctionItem where
  attributes : List Attribute
  visibility : List Token
  signature : Signature
  /-- What stands in the body behind the attributes. -/
  statements : List Token
deriving DecidableEq, Repr

namespace FunctionItem

def outer (item : FunctionItem) : List Attribute := item.attributes.filter (·.style = .outer)

def inner (item : FunctionItem) : List Attribute := item.attributes.filter (·.style = .inner)

/-- The tokens that a function is written with. -/
def tokens (item : FunctionItem) : List Token :=
  item.outer.flatMap Attribute.tokens ++ item.visibility ++ item.signature.tokens
    ++ Token.group .brace (item.inner.flatMap Attribute.tokens ++ item.statements)

def isTest (item : FunctionItem) : Bool := item.attributes.any Attribute.isTest

end FunctionItem

/-! ## Parsers -/

/-- A parser, whose errors are of type `E`. -/
structure Parser (E : Type) where
  /-- The function that tokens are, or what is wrong with them. -/
  function : List Token → Except E FunctionItem
  /-- The names with values that tokens are, with commas between them, or what is wrong with them. -/
  arguments : List Token → Except E (List Argument)
  /-- The error that says a text. -/
  error : String → E
  /-- The tokens that report an error. -/
  report : E → List Token

end TaskSpace.Entry

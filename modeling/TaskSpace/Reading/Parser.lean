import TaskSpace.Entry.Expansion
import TaskSpace.Reading.Grammar.Statements

/-!
A parser of functions and of lists of arguments. Entry attributes are expanded with any parser; this is the
one that runs expand them with.
-/
namespace TaskSpace.Reading

open Entry (Token Argument Attribute AttributeStyle FunctionItem EntryKind Parser Rejection)
open Reader

/-! ## Functions -/

/-- The words of an attribute that is a path and nothing more. -/
def pathWords? (content : List Token) : Option (List String) :=
  (content.filter fun token => token ≠ .punct ':' true && token ≠ .punct ':' false).mapM fun
    | .word text => some text
    | _ => none

/-- Attributes up to something else. `sign` takes the sign of an attribute if it is there. -/
def readAttributes (g : Grammar) (style : AttributeStyle) (sign : Reader Bool) :
    (limit : Nat) → Reader (List Attribute)
  | 0 => failure
  | limit + 1 => do
    if !(← sign) then return []
    let (_, content) ← group .bracket (collected g.attributeContent)
    return { style, content, path? := pathWords? content } :: (← readAttributes g style sign limit)

def outerSign : Reader Bool := op? "#"

def innerSign : Reader Bool := do
  if (← see (Ahead.op "#")) && (← see2 (Ahead.op "!")) then
    take 2
    return true
  else return false

/-- The body of a function: its attributes and its statements. -/
def readBody (g : Grammar) : Reader (List Attribute × List Token) :=
  group .brace do
    let inner ← readAttributes g .inner innerSign ((← rest).length + 1)
    let (_, statements) ← collected g.statements
    return (inner, statements)

def readFunction (g : Grammar) : Reader FunctionItem := do
  let outer ← readAttributes g .outer outerSign ((← rest).length + 1)
  let (_, visibility) ← collected Grammar.visibility
  let signature ← g.signature
  let (inner, statements) ← readBody g
  return { attributes := outer ++ inner, visibility, signature, statements }

/-! ## Arguments -/

def keyOf : List Token → Option String
  | [.word text] => some text
  | _ => none

def readArgument (g : Grammar) : Reader Argument := do
  let (_, path) ← collected Grammar.attributePath
  op "="
  return { key? := keyOf path, literal? := (← g.attributeValue).map Literal.shown }

/-! ## The parser -/

/-- What is read of tokens, if that is all of them. -/
def whole {α : Type} (read : Grammar → Reader α) (tokens : List Token) : Option α :=
  match (read (Grammar.forTokens tokens)).run ⟨tokens, []⟩ with
  | some (a, ⟨[], _⟩) => some a
  | _ => none

/-- The parser whose errors are texts. It does not say where it got stuck. -/
def parser : Parser String where
  function tokens := (whole readFunction tokens).elim (.error "expected a function") .ok
  arguments tokens :=
    (whole (fun g => commaList (readArgument g)) tokens).elim (.error "expected arguments") .ok
  error message := message
  report message :=
    Token.op "::" ++ [.word "core"] ++ Token.op "::" ++ [.word "compile_error"] ++ Token.op "!"
      ++ Token.group .brace [.literal (Text.quote message)]

/-- What an attribute makes of an item, unless one of the texts does not split into tokens. -/
def expandTexts? (kind : EntryKind) (arguments item : String) :
    Option (Except (Rejection String) (List Token)) :=
  return parser.expand kind (← Lexer.tokenize arguments) (← Lexer.tokenize item)

end TaskSpace.Reading

import TaskSpace.Reading.Literal

/-!
Reading tokens from the front: what stands next, and readers that take a part or fail. A reader writes
what it takes, in the one form that the part has in writing. Inside a group the tokens end at the
delimiter that closes it.
-/
namespace TaskSpace.Reading

open Entry (Token Delimiter)

structure Tape where
  rest : List Token
  /-- What was written so far, last first. -/
  written : List Token

/-- Takes a part of the tokens and writes it, or fails. -/
abbrev Reader := StateT Tape Option

/-! ## Looking ahead -/

/-- The words that name nothing unless they are raw. -/
def keywords : List String :=
  ["_", "abstract", "as", "async", "await", "become", "box", "break", "const", "continue", "crate",
    "do", "dyn", "else", "enum", "extern", "false", "final", "fn", "for", "if", "impl", "in", "let",
    "loop", "macro", "match", "mod", "move", "mut", "override", "priv", "pub", "ref", "return",
    "Self", "self", "static", "struct", "super", "trait", "true", "try", "type", "typeof", "unsafe",
    "unsized", "use", "virtual", "where", "while", "yield"]

namespace Ahead

def atEnd : List Token → Bool
  | [] | .closing _ :: _ => true
  | _ => false

def ident : List Token → Bool
  | .word text :: _ => text ∉ keywords
  | _ => false

def anyWord : List Token → Bool
  | .word _ :: _ => true
  | _ => false

def keyword (text : String) : List Token → Bool
  | .word other :: _ => other = text
  | _ => false

/-- Whether an operator stands next, its characters joint. More of them may follow. -/
def opChars : List Char → List Token → Bool
  | [], _ => true
  | [c], .punct d _ :: _ => c = d
  | c :: cs, .punct d joint :: rest => c = d && joint && opChars cs rest
  | _, _ => false

def op (text : String) (ts : List Token) : Bool := opChars text.toList ts

def opens (d : Delimiter) : List Token → Bool
  | .opening other :: _ => other = d
  | _ => false

def anyGroup : List Token → Bool
  | .opening _ :: _ => true
  | _ => false

def lifetime : List Token → Bool
  | .punct '\'' _ :: .word _ :: _ => true
  | _ => false

/-- Whether a literal stands next, which may have a minus sign. -/
def literal : List Token → Bool
  | .punct '-' _ :: .literal text :: _ => (Literal.negative? text).isSome
  | token :: _ => (Literal.ofToken? token).isSome
  | [] => false

/-- What follows the delimiter that closes the groups that are open. -/
def afterGroup : (depth : Nat) → List Token → List Token
  | _, [] => []
  | depth, .opening _ :: rest => afterGroup (depth + 1) rest
  | depth, .closing _ :: rest => if depth ≤ 1 then rest else afterGroup (depth - 1) rest
  | depth, _ :: rest => afterGroup depth rest

/-- What follows the next token; a group counts as one, and so does a lifetime. -/
def skip : List Token → List Token
  | [] => []
  | .closing d :: rest => .closing d :: rest
  | .opening _ :: rest => afterGroup 1 rest
  | .punct '\'' _ :: .word _ :: rest => rest
  | _ :: rest => rest

end Ahead

namespace Reader

variable {α : Type}

/-! ## Steps -/

def rest : Reader (List Token) := return (← get).rest

def write (tokens : List Token) : Reader Unit :=
  modify fun tape => { tape with written := tokens.reverse ++ tape.written }

def skip (n : Nat) : Reader Unit := modify fun tape => { tape with rest := tape.rest.drop n }

def take (n : Nat) : Reader Unit := do
  write ((← rest).take n)
  skip n

def require (condition : Bool) : Reader Unit := if condition then pure () else failure

def see (test : List Token → Bool) : Reader Bool := return test (← rest)

def see2 (test : List Token → Bool) : Reader Bool := return test (Ahead.skip (← rest))

def see3 (test : List Token → Bool) : Reader Bool := return test (Ahead.skip (Ahead.skip (← rest)))

def atEnd : Reader Bool := see Ahead.atEnd

/-! ## Readers as values -/

/-- A reader that takes nothing where it fails. -/
def attempt (p : Reader α) : Reader (Option α) := fun tape =>
  match p.run tape with
  | some (a, tape) => some (some a, tape)
  | none => some (none, tape)

def after? (p : Reader α) (tokens : List Token) : Option (List Token) :=
  (p.run ⟨tokens, []⟩).map (·.2.rest)

/-- The answer of a reader and what it writes, which is not written yet. -/
def collected (p : Reader α) : Reader (α × List Token) := do
  let before := (← get).written
  modify fun tape => { tape with written := [] }
  let a ← p
  let tokens := (← get).written.reverse
  modify fun tape => { tape with written := before }
  return (a, tokens)

/-- A sign and what it announces; both are written only if anything is announced. -/
def announced (sign body : Reader Unit) : Reader Unit := do
  let (_, announcement) ← collected sign
  let (_, tokens) ← collected body
  if !tokens.isEmpty then write (announcement ++ tokens)

/-! ## Tokens -/

def keyword (text : String) : Reader Unit := do
  require (← see (Ahead.keyword text))
  take 1

def op (text : String) : Reader Unit := do
  require (← see (Ahead.op text))
  take text.length

def keyword? (text : String) : Reader Bool := do
  if ← see (Ahead.keyword text) then
    take 1
    return true
  else return false

def op? (text : String) : Reader Bool := do
  if ← see (Ahead.op text) then
    take text.length
    return true
  else return false

def ident : Reader Unit := do
  require (← see Ahead.ident)
  take 1

def lifetime : Reader Unit := do
  require (← see Ahead.lifetime)
  take 2

def lifetime? : Reader Bool := do
  if ← see Ahead.lifetime then
    take 2
    return true
  else return false

/-- A literal, which may have a minus sign; the answer is what it stands for. -/
def literal : Reader Literal := do
  match ← rest with
  | .punct '-' _ :: .literal text :: _ =>
    let some value := Literal.negative? text | failure
    take 2
    return value
  | token :: _ =>
    let some value := Literal.ofToken? token | failure
    take 1
    return value
  | [] => failure

def literal? : Reader Bool := return (← attempt literal).isSome

/-! ## Groups and lists -/

/-- A group, with what is inside it. -/
def group (d : Delimiter) (inside : Reader α) : Reader α := do
  require (← see (Ahead.opens d))
  take 1
  let a ← inside
  match ← rest with
  | .closing _ :: _ => take 1
  | _ => failure
  return a

def anyGroup : Reader Unit := do
  require (← see Ahead.anyGroup)
  let tokens ← rest
  take (tokens.length - (Ahead.skip tokens).length)

/-- Repeats a reader until it says that it was the last time, at most `limit` times. -/
def repeatUpTo : (limit : Nat) → Reader Bool → Reader Unit
  | 0, _ => failure
  | limit + 1, more => do if ← more then repeatUpTo limit more

/-- Repeats a reader that takes a token each time it asks for more. -/
def whileMore (more : Reader Bool) : Reader Unit := do
  repeatUpTo ((← rest).length + 1) more

def commaListUpTo (entry : Reader α) : (limit : Nat) → Reader (List α)
  | 0 => failure
  | limit + 1 => do
    if ← atEnd then return []
    let a ← entry
    if ← atEnd then return [a]
    op ","
    return a :: (← commaListUpTo entry limit)

/-- Entries up to the end of the group, with commas between them; one may stand at the end. -/
def commaList (entry : Reader α) : Reader (List α) := do
  commaListUpTo entry ((← rest).length + 1)

/-- Entries of a comma list of which only the writing counts. -/
def commaEntries (entry : Reader Unit) : Reader Unit := do
  let _ ← commaList entry

end Reader

end TaskSpace.Reading

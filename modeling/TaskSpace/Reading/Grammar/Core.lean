import TaskSpace.Reading.Reader

/-!
The grammar of function items. A grammar is a family of readers that use each other one level down;
`Grammar.none` reads nothing, and each further level reads what is nested once more.
-/
namespace TaskSpace.Reading

open Entry (Token Delimiter)

inductive TypeKind where
  /-- A path; `simple` if it is one segment without parentheses. -/
  | path (qualified simple : Bool)
  /-- Bounds without `dyn`; `single` if there is just one. -/
  | bounds (single : Bool)
  | paren
  | other
deriving DecidableEq, Repr

inductive ExprKind where
  /-- A literal and nothing more. -/
  | literal (value : Literal)
  /-- A block, or a statement of control that ends with one. -/
  | blockLike
  | macroCall (d : Delimiter)
  | range
  | comparison
  | other
deriving DecidableEq, Repr

inductive PatternKind where
  | rest
  /-- A range without one of its ends. -/
  | halfRange
  | other
deriving DecidableEq, Repr

structure PathShape where
  qualified : Bool
  /-- No segment has arguments. -/
  plain : Bool
  /-- The last segment has no arguments. -/
  lastPlain : Bool
  /-- One segment, and no colons before it. -/
  single : Bool
deriving DecidableEq, Repr

abbrev Precedence := Nat

namespace Precedence

def lowest : Precedence := 0

def assign : Precedence := 1

def range : Precedence := 2

def compare : Precedence := 6

def cast : Precedence := 13

end Precedence

/-- Readers for what nests. `structs` says whether a brace after a path is part of it. -/
structure Grammar where
  /-- A path that is not qualified; in an expression, arguments need a double colon before them. -/
  path : (inExpr : Bool) → Reader PathShape
  type : (plus : Bool) → Reader TypeKind
  pattern : Reader PatternKind
  expr : (structs : Bool) → Reader ExprKind
  unary : (structs : Bool) → Reader ExprKind
  /-- Operators of at least the given precedence, and their operands, after a first operand. -/
  operators : (structs : Bool) → Precedence → ExprKind → Reader ExprKind
  /-- What binds more tightly than the operator before the given operand. -/
  operand : (structs : Bool) → Precedence → ExprKind → Reader ExprKind
  statementExpr : Reader ExprKind
  /-- Statements in braces; `attributes` says whether inner attributes may come first. -/
  block : (attributes : Bool) → Reader Unit
  item : Reader Unit

namespace Grammar

def none : Grammar :=
  { path := fun _ => failure, type := fun _ => failure, pattern := failure, expr := fun _ => failure
    unary := fun _ => failure, operators := fun _ _ _ => failure
    operand := fun _ _ _ => failure, statementExpr := failure, block := fun _ => failure, item := failure }

open Reader

variable (g : Grammar)

/-! ## Paths -/

/-- Words between double colons, none of them with arguments. -/
def plainPath : Reader Unit := do
  let _ ← op? "::"
  let segment : List Token → Bool := fun ts =>
    Ahead.ident ts || ["super", "self", "Self", "crate"].any (Ahead.keyword · ts)
  whileMore do
    require (← see segment)
    take 1
    op? "::"

/-! ## Attributes -/

def attributePath : Reader Unit := do
  if ← see (Ahead.keyword "unsafe") then take 1 else plainPath

/-- The value after an equals sign: a literal, if nothing follows it, or an expression. The answer is
the literal that the value is, if it is one. -/
def attributeValue : Reader (Option Literal) := do
  let start ← get
  match ← attempt literal with
  | some value =>
    if ← atEnd then return some value
    set start
  | Option.none => require !((← see (Ahead.op "#")) && (← see2 (Ahead.opens .bracket)))
  match ← g.expr true with
  | .literal value => return some value
  | _ => return Option.none

/-- What an attribute holds: a path, perhaps with a group or a value. -/
def attributeContent : Reader Unit := do
  attributePath
  if ← see Ahead.anyGroup then anyGroup
  else if ← op? "=" then
    let _ ← g.attributeValue

def outerAttributes : Reader Unit :=
  whileMore do
    if !(← op? "#") then return false
    group .bracket g.attributeContent
    return true

def innerAttributes : Reader Unit :=
  whileMore do
    if !((← see (Ahead.op "#")) && (← see2 (Ahead.op "!"))) then return false
    take 2
    group .bracket g.attributeContent
    return true

/-! ## Entries in angles -/

structure AngleEntry where
  lifetime : Bool
  tokens : List Token
  comma : Bool
deriving Repr

/-- Entries up to the angle that closes, of which nothing is written yet. An entry answers whether it
is a lifetime. -/
def entriesUpToAngle (entry : Reader Bool) : (limit : Nat) → Reader (List AngleEntry)
  | 0 => failure
  | limit + 1 => do
    if ← see (Ahead.op ">") then return []
    let (lifetime, tokens) ← collected entry
    if ← see (Ahead.op ">") then return [⟨lifetime, tokens, false⟩]
    let _ ← collected (op ",")
    return ⟨lifetime, tokens, true⟩ :: (← entriesUpToAngle entry limit)

/-- Entries with commas between them, and one at the end if the last entry has one. -/
def joinEntries : List AngleEntry → List Token
  | [] => []
  | [last] => last.tokens ++ if last.comma then Token.op "," else []
  | entry :: entries => entry.tokens ++ Token.op "," ++ joinEntries entries

/-- Entries in angles, of which lifetimes are written before the others. Angles without entries are
written if `always` is set. -/
def angles (always : Bool) (entry : Reader Bool) : Reader Unit := do
  let _ ← collected (op "<")
  let entries ← entriesUpToAngle entry ((← rest).length + 1)
  let _ ← collected (op ">")
  let (lifetimes, others) := entries.partition (·.lifetime)
  if always || !entries.isEmpty then
    write (Token.op "<" ++ joinEntries (lifetimes ++ others) ++ Token.op ">")

def boundLifetimes? : Reader Bool := do
  if !(← keyword? "for") then return false
  angles true do
    g.outerAttributes
    lifetime
    return true
  return true

/-- Lifetimes joined by plus signs, up to one of the given signs. -/
def lifetimeBounds (stop : List Token → Bool) : Reader Unit :=
  whileMore do
    if ← see stop then return false
    lifetime
    op? "+"

/-! ## Types -/

/-- The value of a constant parameter: a literal, a name or a block. -/
def constArgument : Reader Unit := do
  if ← literal? then return
  if ← see Ahead.ident then take 1 else g.block true

def returnType (plus : Bool) : Reader (Option TypeKind) := do
  if ← op? "->" then some <$> g.type plus else return Option.none

def parenthesesAhead : Reader Bool := do
  return (← see (Ahead.opens .parenthesis))
    || ((← see (Ahead.op "::")) && (← see3 (Ahead.opens .parenthesis)))

/-- Arguments in parentheses, with a return type. A double colon before them is not written. -/
def parenthesizedArguments : Reader (Option TypeKind) := do
  let _ ← collected (op? "::")
  group .parenthesis (commaEntries (do let _ ← g.type true))
  g.returnType false

end Grammar

end TaskSpace.Reading

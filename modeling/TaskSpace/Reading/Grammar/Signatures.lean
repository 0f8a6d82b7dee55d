import TaskSpace.Reading.Grammar.Expressions

/-!
Reading visibilities, generic parameters and the signatures of functions.
-/
namespace TaskSpace.Reading.Grammar

open Entry (Token Signature)

open Reader

variable (g : Grammar)

/-! ## Visibility -/

/-- The place that a visibility is restricted to, if the parentheses hold one. -/
def restriction : Reader Unit :=
  group .parenthesis do
    if ← keyword? "in" then plainPath
    else
      require (["crate", "self", "super"].any (Ahead.keyword · (← rest)))
      take 1

/-- A visibility, which may be empty. Parentheses that hold no place are not part of it, unless they
start like one. -/
def visibility : Reader Unit := do
  if ← keyword? "pub" then
    if ← see (Ahead.opens .parenthesis) then
      match (← rest).drop 1 with
      | .word "in" :: _ => restriction
      | .word "crate" :: .closing _ :: _ | .word "self" :: .closing _ :: _
      | .word "super" :: .closing _ :: _ => restriction
      | _ => pure ()

/-! ## Generic parameters -/

def lifetimeParameter : Reader Unit := do
  lifetime
  if ← see (Ahead.op ":") then
    announced (op ":") (lifetimeBounds fun ts => Ahead.op "," ts || Ahead.op ">" ts)

def typeParameter : Reader Unit := do
  take 1
  if ← see (Ahead.op ":") then
    announced (op ":") <| g.boundsUpTo fun ts =>
      Ahead.op "," ts || Ahead.op ">" ts || Ahead.op "=" ts
  if ← op? "=" then
    let _ ← g.type true

def constParameter : Reader Unit := do
  keyword "const"
  ident
  op ":"
  let _ ← g.type true
  if ← op? "=" then g.constArgument

/-- One parameter; the answer tells whether it is a lifetime. -/
def parameter : Reader Bool := do
  g.outerAttributes
  let ts ← rest
  if Ahead.lifetime ts then
    lifetimeParameter
    return true
  else if Ahead.keyword "const" ts then
    g.constParameter
    return false
  else
    require (Ahead.ident ts || Ahead.keyword "_" ts)
    g.typeParameter
    return false

def generics : Reader Unit := do
  if ← see (Ahead.op "<") then angles false g.parameter

def clauseIsOver (ts : List Token) : Bool :=
  Ahead.atEnd ts || Ahead.opens .brace ts || Ahead.op "," ts || Ahead.op ";" ts
    || (Ahead.op ":" ts && !Ahead.op "::" ts) || Ahead.op "=" ts

def predicate : Reader Unit := do
  if (← see Ahead.lifetime) && (← see2 (Ahead.op ":")) then
    lifetime
    op ":"
    lifetimeBounds fun ts => clauseIsOver ts || Ahead.op ">" ts
  else
    let _ ← g.boundLifetimes?
    let _ ← g.type true
    op ":"
    g.boundsUpTo clauseIsOver

def predicates : Reader Unit :=
  whileMore do
    if ← see clauseIsOver then return false
    g.predicate
    op? ","

def whereClause : Reader Unit := do
  if ← see (Ahead.keyword "where") then announced (keyword "where") g.predicates

/-! ## Functions -/

/-- What comes before the keyword of a function; the answer tells whether it is asynchronous. -/
def qualifiers : Reader Bool := do
  let _ ← keyword? "const"
  let asynchronous ← keyword? "async"
  let _ ← keyword? "unsafe"
  if ← keyword? "extern" then
    match ← rest with
    | .literal text :: _ =>
      match Literal.ofText text with
      | .text _ => take 1
      | _ => pure ()
    | _ => pure ()
  return asynchronous

def receiver : Reader Unit := do
  if ← op? "&" then
    let _ ← lifetime?
    let _ ← keyword? "mut"
    keyword "self"
  else
    let _ ← keyword? "mut"
    keyword "self"
    if ← op? ":" then
      let _ ← g.type true

inductive ArgumentKind where
  | receiver
  | typed
  /-- Any further arguments. -/
  | variadic
deriving DecidableEq, Repr

def argument : Reader ArgumentKind := do
  g.outerAttributes
  if ← op? "..." then return .variadic
  if (← attempt g.receiver).isSome then return .receiver
  if (← see Ahead.ident) && (← see2 (Ahead.op "<")) then
    write [.word "_", .punct ':' false]
    let _ ← g.type true
    return .typed
  let _ ← g.pattern
  op ":"
  if ← op? "..." then return .variadic
  let _ ← g.type true
  return .typed

/-- The arguments of a function. A receiver comes first, and variadic arguments come last. The answer
tells whether there are any that are not variadic. -/
def arguments : (limit : Nat) → (before : Bool) → Reader Bool
  | 0, _ => failure
  | limit + 1, before => do
    if ← atEnd then return before
    match ← g.argument with
    | .variadic =>
      if !(← atEnd) then op ","
      return before
    | kind =>
      require !(kind = .receiver && before)
      if ← atEnd then return true
      op ","
      arguments limit true

/-- A function up to its arguments; the answer tells whether it is asynchronous, and whether it has arguments. -/
def head : Reader (Bool × Bool) := do
  let asynchronous ← qualifiers
  keyword "fn"
  ident
  g.generics
  let hasArguments ← group .parenthesis (do g.arguments ((← rest).length + 1) false)
  return (asynchronous, hasArguments)

def signature : Reader Signature := do
  let ((asynchronous, hasArguments), head) ← collected g.head
  let (arrow, _) ← collected (op? "->")
  let (_, type) ← collected (do if arrow then let _ ← g.type true)
  let (_, clause) ← collected g.whereClause
  return { head, asynchronous, hasArguments, output := if arrow then some type else .none, clause }

end TaskSpace.Reading.Grammar

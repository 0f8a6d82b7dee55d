import TaskSpace.Reading.Grammar.Types

/-!
Reading patterns.
-/
namespace TaskSpace.Reading.Grammar

open Entry (Token Delimiter)

open Reader

variable (g : Grammar)

def alternativeAhead (ts : List Token) : Bool :=
  Ahead.op "|" ts && !Ahead.op "||" ts && !Ahead.op "|=" ts

/-- A pattern with alternatives between bars; one bar may come first. -/
def patterns : Reader PatternKind := do
  let leading ← op? "|"
  let first ← g.pattern
  if leading || (← see alternativeAhead) then
    whileMore do
      if !(← see alternativeAhead) then return false
      take 1
      let _ ← g.pattern
      return true
    return .other
  else return first

/-- The sign of a range in a pattern; the answer tells whether the range needs an end. -/
def rangeSign : Reader Bool := do
  if ← op? "..=" then return true
  else if ← op? "..." then return true
  else
    op ".."
    return false

def rangeBound? : Reader Bool := do
  let ts ← rest
  if Ahead.atEnd ts || Ahead.op "|" ts || Ahead.op "=" ts
      || (Ahead.op ":" ts && !Ahead.op "::" ts) || Ahead.op "," ts || Ahead.op ";" ts
      || Ahead.keyword "if" ts then
    return false
  if ← literal? then return true
  if pathAhead ts then
    let _ ← g.qualifiedPath true
  else
    keyword "const"
    g.block true
  return true

/-- The rest of a range in a pattern, from its sign on; the answer tells whether it has an end. -/
def rangeEnd : Reader Bool := do
  let closed ← rangeSign
  let bounded ← g.rangeBound?
  require (bounded || !closed)
  return bounded

/-- The members that a structure has are named or numbered; the answer tells whether it is named. -/
def member : Reader Bool := do
  match ← rest with
  | .literal text :: _ =>
    match Literal.ofText text with
    | .int _ value "" =>
      require (value < 0x100000000)
      take 1
      return false
    | _ => failure
  | _ =>
    ident
    return true

def fieldPattern : Reader Unit := do
  let boxed ← keyword? "box"
  let byRef ← keyword? "ref"
  let mutable ← keyword? "mut"
  if boxed || byRef || mutable then ident
  else
    let named ← member
    if (← see (Ahead.op ":")) || !named then
      op ":"
      let _ ← g.patterns

def structPattern : Reader Unit :=
  group .brace <| whileMore do
    if ← atEnd then return false
    g.outerAttributes
    if ← op? ".." then return false
    g.fieldPattern
    if ← atEnd then return false
    op ","
    return true

def pathPattern : Reader PatternKind := do
  let shape ← g.qualifiedPath true
  if !shape.qualified && (← see (Ahead.op "!")) && !(← see (Ahead.op "!=")) && shape.plain then
    op "!"
    anyGroup
    return .other
  else if ← see (Ahead.opens .brace) then
    g.structPattern
    return .other
  else if ← see (Ahead.opens .parenthesis) then
    group .parenthesis (commaEntries (do let _ ← g.patterns))
    return .other
  else if ← see (Ahead.op "..") then return if ← g.rangeEnd then .other else .halfRange
  else return .other

def binding : Reader Unit := do
  let _ ← keyword? "ref"
  let _ ← keyword? "mut"
  if ← see (Ahead.keyword "self") then take 1 else ident
  if ← op? "@" then
    let _ ← g.pattern

def literalPattern : Reader PatternKind := do
  require (← g.rangeBound?)
  if ← see (Ahead.op "..") then return if ← g.rangeEnd then .other else .halfRange
  else return .other

/-- Whether a pattern starts with a path rather than with the name that it binds. -/
def pathPatternAhead (ts : List Token) : Bool :=
  let next := Ahead.skip ts
  (Ahead.ident ts && (Ahead.op "::" next || Ahead.op "!" next || Ahead.opens .brace next
      || Ahead.opens .parenthesis next || Ahead.op ".." next))
    || (Ahead.keyword "self" ts && Ahead.op "::" next) || Ahead.op "::" ts || Ahead.op "<" ts
    || ["Self", "super", "crate"].any (Ahead.keyword · ts)

def patternRule : Reader PatternKind := do
  let ts ← rest
  if pathPatternAhead ts then g.pathPattern
  else if ← keyword? "_" then return .other
  else if ← keyword? "box" then
    let _ ← g.pattern
    return .other
  else if Ahead.op "-" ts || Ahead.literal ts || Ahead.keyword "const" ts then g.literalPattern
  else if Ahead.ident ts || ["ref", "mut", "self"].any (Ahead.keyword · ts) then
    g.binding
    return .other
  else if ← op? "&" then
    let _ ← keyword? "mut"
    let _ ← g.pattern
    return .other
  else if Ahead.opens .parenthesis ts then
    group .parenthesis (commaEntries (do let _ ← g.patterns))
    return .other
  else if Ahead.opens .bracket ts then
    group .bracket <| commaEntries do
      require ((← g.patterns) ≠ .halfRange)
    return .other
  else if Ahead.op ".." ts && !Ahead.op "..." ts then
    return if ← g.rangeEnd then .halfRange else .rest
  else failure

end TaskSpace.Reading.Grammar

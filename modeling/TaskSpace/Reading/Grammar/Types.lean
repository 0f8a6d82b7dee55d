import TaskSpace.Reading.Grammar.Core

/-!
Reading paths, bounds and types.
-/
namespace TaskSpace.Reading.Grammar

open Entry (Token Delimiter)

open Reader

variable (g : Grammar)

/-! ## Bounds -/

def traitBound : Reader Unit := do
  let lifetimes ← g.boundLifetimes?
  if ← op? "~" then keyword "const"
  else
    let _ ← keyword? "const"
  if ← op? "?" then require (!lifetimes && !(← see (Ahead.keyword "for")))
  let shape ← g.path false
  if shape.lastPlain && (← parenthesesAhead) then
    let _ ← g.parenthesizedArguments

def captures : Reader Unit := do
  keyword "use"
  angles true do
    if ← lifetime? then return true
    require ((← see Ahead.ident) || (← see (Ahead.keyword "Self")))
    take 1
    return false

/-- One bound: a lifetime, or a trait that may stand in parentheses, or what is captured if
`capturing` says that it may be told. The answer tells whether it names a trait. -/
def bound (capturing : Bool) : Reader Bool := do
  if ← lifetime? then return false
  if capturing && (← see (Ahead.keyword "use")) then
    captures
    return false
  if ← see (Ahead.opens .parenthesis) then group .parenthesis g.traitBound else g.traitBound
  return true

def boundAhead (ts : List Token) : Bool :=
  Ahead.anyWord ts || Ahead.op "::" ts || Ahead.op "?" ts || Ahead.lifetime ts
    || Ahead.opens .parenthesis ts

/-- Bounds after the first, each after a plus sign; one plus sign may stand at the end. The answer
tells whether any bound names a trait. -/
def moreBounds (capturing : Bool) : (limit : Nat) → (trait : Bool) → Reader Bool
  | 0, _ => failure
  | limit + 1, trait => do
    if !(← op? "+") then return trait
    if !(← see boundAhead) then return trait
    moreBounds capturing limit ((← g.bound capturing) || trait)

/-- Bounds of which at least one names a trait; `plus` says whether there may be several. -/
def traitBounds (plus capturing : Bool) : Reader Unit := do
  let trait ← g.bound capturing
  require (← if plus then g.moreBounds capturing ((← rest).length + 1) trait else pure trait)

/-- Bounds joined by plus signs, up to one of the given signs. -/
def boundsUpTo (stop : List Token → Bool) : Reader Unit :=
  whileMore do
    if ← see stop then return false
    let _ ← g.bound false
    op? "+"

/-! ## Paths -/

/-- An argument in angles; the answer tells whether it is a lifetime. -/
def genericArgument : Reader Bool := do
  if (← see Ahead.lifetime) && !(← see2 (Ahead.op "+")) then
    lifetime
    return true
  if (← see Ahead.literal) || (← see (Ahead.opens .brace)) then g.constArgument
  else
    match ← g.type true with
    | .path false true =>
      if ← op? "=" then
        if (← see Ahead.literal) || (← see (Ahead.opens .brace)) then g.constArgument
        else
          let _ ← g.type true
      else if ← op? ":" then g.boundsUpTo fun ts => Ahead.op "," ts || Ahead.op ">" ts
    | _ => pure ()
  return false

/-- Arguments in angles, perhaps after a double colon. -/
def angleArguments : Reader Unit := do
  let _ ← op? "::"
  angles true g.genericArgument

/-- One segment of a path; the answer tells whether it has arguments. -/
def segment (inExpr : Bool) : Reader Bool := do
  if ["super", "self", "crate", "try"].any (Ahead.keyword · (← rest)) then
    take 1
    return false
  if ← see (Ahead.keyword "Self") then take 1 else ident
  if (!inExpr && (← see (Ahead.op "<")) && !(← see (Ahead.op "<=")))
      || ((← see (Ahead.op "::")) && (← see3 (Ahead.op "<"))) then
    g.angleArguments
    return true
  else return false

/-- The segments after the first. -/
def moreSegments (inExpr : Bool) : (limit : Nat) → PathShape → Reader PathShape
  | 0, _ => failure
  | limit + 1, shape => do
    if (← see (Ahead.op "::")) && !(← see3 (Ahead.opens .parenthesis)) then
      op "::"
      let arguments ← g.segment inExpr
      moreSegments inExpr limit
        { shape with plain := shape.plain && !arguments, lastPlain := !arguments, single := false }
    else return shape

def pathRule (inExpr : Bool) : Reader PathShape := do
  let leading ← op? "::"
  let arguments ← g.segment inExpr
  g.moreSegments inExpr ((← rest).length + 1)
    { qualified := false, plain := !arguments, lastPlain := !arguments, single := !leading }

/-- The segments after the first of a qualified path. -/
def qualifiedSegments (inExpr : Bool) : (limit : Nat) → PathShape → Reader PathShape
  | 0, _ => failure
  | limit + 1, shape => do
    if ← op? "::" then
      let arguments ← g.segment inExpr
      qualifiedSegments inExpr limit
        { shape with plain := shape.plain && !arguments, lastPlain := !arguments }
    else return shape

def qualifiedPath (inExpr : Bool) : Reader PathShape := do
  if ← op? "<" then
    let _ ← g.type true
    if ← keyword? "as" then
      let _ ← g.path false
    op ">"
    op "::"
    let arguments ← g.segment inExpr
    let start : PathShape :=
      { qualified := true, plain := !arguments, lastPlain := !arguments, single := false }
    g.qualifiedSegments inExpr ((← rest).length + 1) start
  else g.pathRule inExpr

/-- The arguments in parentheses that the segments of a type may have. After them the path may go
on, unless they end in a return type without parentheses. -/
def parenthesizedSegments : (limit : Nat) → PathShape → Reader PathShape
  | 0, _ => failure
  | limit + 1, shape => do
    if shape.lastPlain && (← parenthesesAhead) then
      let output ← g.parenthesizedArguments
      let shape := { shape with plain := false, lastPlain := false, single := false }
      if output = .none || output = some .paren then
        let shape ← g.moreSegments false ((← rest).length + 1) shape
        parenthesizedSegments limit shape
      else return shape
    else return shape

def pathType (plus lifetimes : Bool) : Reader TypeKind := do
  let shape ← g.qualifiedPath false
  let shape ← g.parenthesizedSegments ((← rest).length + 1) shape
  if shape.qualified then return .path true false
  if (← see (Ahead.op "!")) && !(← see (Ahead.op "!=")) && shape.plain then
    op "!"
    anyGroup
    return .other
  if lifetimes || (plus && (← see (Ahead.op "+"))) then
    let single := !(plus && (← see (Ahead.op "+")))
    if plus then
      let _ ← g.moreBounds false ((← rest).length + 1) true
    return .bounds single
  return .path false shape.single

/-! ## Types -/

def pointerArgument : Reader Unit := do
  let named := fun ts => Ahead.ident ts || Ahead.keyword "_" ts || Ahead.keyword "self" ts
  if (← see (Ahead.keyword "mut")) && (← see2 (Ahead.keyword "self")) then
    take 2
    if ← op? ":" then
      let _ ← g.type true
  else
    if (← see named) && (← see2 (Ahead.op ":")) && !(← see2 (Ahead.op "::")) then take 2
    let _ ← g.type true

def functionPointer : Reader Unit := do
  let _ ← keyword? "unsafe"
  if ← keyword? "extern" then
    let _ ← literal?
  keyword "fn"
  group .parenthesis do
    whileMore do
      if ← atEnd then return false
      g.outerAttributes
      if ← op? "..." then
        let _ ← op? ","
        return false
      if ((← see Ahead.ident) || (← see (Ahead.keyword "_"))) && (← see2 (Ahead.op ":"))
          && (← see3 (Ahead.op "...")) then
        take 2
        op "..."
        let _ ← op? ","
        return false
      g.pointerArgument
      if ← atEnd then return false
      op ","
      return true
  let _ ← g.returnType false

/-- A type in parentheses, or a tuple of types. -/
def parenthesizedType (plus : Bool) : Reader TypeKind := do
  let inside ← group .parenthesis do
    if ← atEnd then return TypeKind.other
    if ← see Ahead.lifetime then
      let _ ← g.type true
      return .paren
    if ← see (Ahead.op "?") then
      g.traitBound
      return .bounds true
    let first ← g.type true
    if ← op? "," then
      commaEntries (do let _ ← g.type true)
      return .other
    return match first with
      | .path false _ => .path false false
      | .bounds true => .path false false
      | _ => .paren
  match inside with
  | .bounds _ =>
    let _ ← g.moreBounds false ((← rest).length + 1) true
    return .bounds false
  | .path _ _ =>
    if plus && (← see (Ahead.op "+")) then
      let _ ← g.moreBounds false ((← rest).length + 1) true
      return .bounds false
    else return .paren
  | kind => return kind

def pathAhead (ts : List Token) : Bool :=
  Ahead.ident ts || ["super", "self", "Self", "crate"].any (Ahead.keyword · ts) || Ahead.op "::" ts
    || Ahead.op "<" ts

/-- A type. `plus` says whether it may be several bounds. -/
def typeRule (plus : Bool) : Reader TypeKind := do
  let lifetimes ← g.boundLifetimes?
  if lifetimes then
    let ts ← rest
    require (Ahead.ident ts
      || ["fn", "unsafe", "extern", "super", "self", "Self", "crate"].any (Ahead.keyword · ts))
  if ← see (Ahead.opens .parenthesis) then g.parenthesizedType plus
  else if ["fn", "unsafe", "extern"].any (Ahead.keyword · (← rest)) then
    g.functionPointer
    return .other
  else if ← see pathAhead then g.pathType plus lifetimes
  else if ← keyword? "dyn" then
    let _ ← op? "*"
    g.traitBounds plus false
    return .other
  else if ← see (Ahead.opens .bracket) then
    group .bracket do
      let _ ← g.type true
      if ← op? ";" then
        let _ ← g.expr true
    return .other
  else if ← op? "*" then
    if !(← keyword? "const") then keyword "mut"
    let _ ← g.type false
    return .other
  else if ← op? "&" then
    let _ ← lifetime?
    let _ ← keyword? "mut"
    let _ ← g.type false
    return .other
  else if ← op? "!" then return .other
  else if ← keyword? "impl" then
    g.traitBounds plus true
    return .other
  else if ← keyword? "_" then return .other
  else if ← see Ahead.lifetime then
    g.traitBounds plus false
    return .bounds false
  else failure

end TaskSpace.Reading.Grammar

import TaskSpace.Reading.Grammar.Patterns

/-!
Reading expressions.
-/
namespace TaskSpace.Reading.Grammar

open Entry (Token Delimiter)

open Reader

variable (g : Grammar)

/-! ## Operators -/

/-- The operators between two operands, of which the first that fits is read, with what they bind. -/
def binaryOperators : List (String × Precedence) :=
  [("+=", 1), ("-=", 1), ("*=", 1), ("/=", 1), ("%=", 1), ("^=", 1), ("&=", 1), ("|=", 1),
    ("<<=", 1), (">>=", 1), ("&&", 4), ("||", 3), ("<<", 10), (">>", 10), ("==", 6), ("<=", 6),
    ("!=", 6), (">=", 6), ("+", 11), ("-", 11), ("*", 12), ("/", 12), ("%", 12), ("^", 8), ("&", 9),
    ("|", 7), ("<", 6), (">", 6)]

def operator? (ts : List Token) : Option (String × Precedence) :=
  binaryOperators.find? fun entry => Ahead.op entry.1 ts

def assignAhead (ts : List Token) : Bool := Ahead.op "=" ts && !Ahead.op "=>" ts

def nextPrecedence (ts : List Token) : Precedence :=
  match operator? ts with
  | some (_, precedence) => precedence
  | .none =>
    if assignAhead ts then Precedence.assign
    else if Ahead.op ".." ts then Precedence.range
    else if Ahead.keyword "as" ts then Precedence.cast
    else Precedence.lowest

/-- The operand after an operator: everything that binds more tightly belongs to it. -/
def rightOperand (structs : Bool) (precedence : Precedence) : Reader ExprKind := do
  g.operand structs precedence (← g.unary structs)

def operandRule (structs : Bool) (precedence : Precedence) (kind : ExprKind) :
    Reader ExprKind := do
  let before ← rest
  let next := nextPrecedence before
  if next > precedence || (next = precedence && precedence = Precedence.assign) then
    let kind ← g.operators structs next kind
    if (← rest).length = before.length then return kind
    else g.operand structs precedence kind
  else return kind

/-- The signs after which a range without an end is over. -/
def rangeIsOver (structs : Bool) (ts : List Token) : Bool :=
  Ahead.atEnd ts || Ahead.op "," ts || Ahead.op ";" ts || (Ahead.op "." ts && !Ahead.op ".." ts)
    || Ahead.op "?" ts || Ahead.op "=>" ts || (!structs && Ahead.opens .brace ts)
    || ["=", "+", "/", "%", "^", ">", "<=", "!=", "-=", "*=", "&=", "|=", "<<="].any
      (Ahead.op · ts)
    || Ahead.keyword "as" ts

/-- A range, from its sign on. -/
def rangeRest (structs : Bool) : Reader Unit := do
  let closed ← op? "..="
  if !closed then
    require !(← see (Ahead.op "..."))
    op ".."
  if closed || !rangeIsOver structs (← rest) then
    let _ ← g.rightOperand structs Precedence.range

/-- What no cast is followed by. -/
def afterCast (ts : List Token) : Bool :=
  (Ahead.op "." ts && !Ahead.op ".." ts) || Ahead.op "?" ts || Ahead.opens .bracket ts
    || Ahead.opens .parenthesis ts

/-- Operators of at least a precedence after a first operand. A range is no operand, and comparisons
are not chained. -/
def operatorsRule (structs : Bool) (base : Precedence) (kind : ExprKind) : Reader ExprKind := do
  let ts ← rest
  if kind = .range then return kind
  match operator? ts with
  | some (sign, precedence) =>
    if precedence < base then return kind
    require !(precedence = Precedence.compare && kind = .comparison)
    op sign
    let _ ← g.rightOperand structs precedence
    g.operators structs base
      (if precedence = Precedence.compare then .comparison else .other)
  | .none =>
    if Precedence.assign ≥ base && assignAhead ts then
      op "="
      let _ ← g.rightOperand structs Precedence.assign
      g.operators structs base .other
    else if Precedence.range ≥ base && Ahead.op ".." ts then
      g.rangeRest structs
      return .range
    else if Precedence.cast ≥ base && Ahead.keyword "as" ts then
      take 1
      let _ ← g.type false
      require !afterCast (← rest)
      g.operators structs base .other
    else return kind

/-! ## What follows an operand -/

def callArguments : Reader Unit :=
  group .parenthesis (commaEntries (do let _ ← g.expr true))

/-- The number of a member, in base ten and without a suffix. -/
def memberNumber (part : String) : Option Nat :=
  match Literal.ofText part with
  | .int false value "" =>
    if part.toList.head?.any Text.isDigit && value < 0x100000000 then some value else .none
  | _ => .none

/-- The numbers of members that a number with a point stands for; a point at the end leaves one
more member to come. -/
def memberNumbers (text : String) : Option (List Nat × Bool) := do
  let parts := text.splitOn "."
  let trailing := text.toList.getLast? = some '.'
  return (← (if trailing then parts.dropLast else parts).mapM memberNumber, trailing)

/-- The numbers of members, with points between them. -/
def numberTokens (numbers : List Nat) : List Token :=
  (numbers.map fun n => [Token.literal (toString n)]).intersperse (Token.op ".") |>.flatten

/-- What follows a point: an awaiting, a member or a method call. A number with a point is written as the
members that it stands for. -/
def afterPoint : Reader Unit := do
  match ← rest with
  | .literal text :: _ =>
    match Literal.ofText text with
    | .other =>
      match memberNumbers text with
      | some (numbers, trailing) =>
        skip 1
        write (numberTokens numbers)
        if trailing then
          write (Token.op ".")
          afterNumbers
      | .none => failure
    | _ => afterNumbers
  | _ => afterNumbers
where
  afterNumbers : Reader Unit := do
    if ← keyword? "await" then return
    let named ← member
    if named && (← see (Ahead.op "::")) then
      g.angleArguments
      g.callArguments
    else if named && (← see (Ahead.opens .parenthesis)) then g.callArguments

/-- Calls, indices, members and question marks after an operand. -/
def trailers : (limit : Nat) → ExprKind → Reader ExprKind
  | 0, _ => failure
  | limit + 1, kind => do
    let ts ← rest
    if Ahead.opens .parenthesis ts then
      g.callArguments
      trailers limit .other
    else if Ahead.op "." ts && !Ahead.op ".." ts && kind ≠ .range then
      take 1
      g.afterPoint
      trailers limit .other
    else if Ahead.opens .bracket ts then
      group .bracket (do let _ ← g.expr true)
      trailers limit .other
    else if Ahead.op "?" ts && kind ≠ .range then
      take 1
      trailers limit .other
    else return kind

/-! ## Operands -/

def fieldValue : Reader Unit := do
  g.outerAttributes
  let named ← member
  if (← see (Ahead.op ":")) || !named then
    op ":"
    let _ ← g.expr true

/-- The fields of a structure, and the structure that gives the others. -/
def structFields : Reader Unit :=
  group .brace <| whileMore do
    if ← atEnd then return false
    if ← op? ".." then
      if !(← atEnd) then
        let _ ← g.expr true
      return false
    g.fieldValue
    if ← atEnd then return false
    op ","
    return true

def nextDelimiter : Reader Delimiter := do
  match ← rest with
  | .opening d :: _ => return d
  | _ => failure

def pathOperand (structs : Bool) : Reader ExprKind := do
  let shape ← g.qualifiedPath true
  if !shape.qualified && (← see (Ahead.op "!")) && !(← see (Ahead.op "!=")) && shape.plain then
    op "!"
    let d ← nextDelimiter
    anyGroup
    return .macroCall d
  else if structs && (← see (Ahead.opens .brace)) then
    g.structFields
    return .other
  else return .other

def parenthesized : Reader ExprKind := do
  group .parenthesis (commaEntries (do let _ ← g.expr true))
  return .other

def arrayOrRepeat : Reader ExprKind := do
  group .bracket do
    if ← atEnd then return
    let _ ← g.expr true
    if ← op? ";" then
      let _ ← g.expr true
    else if !(← atEnd) then
      op ","
      commaEntries (do let _ ← g.expr true)
  return .other

def closure (structs : Bool) : Reader ExprKind := do
  let _ ← g.boundLifetimes?
  for word in ["const", "static", "async", "move"] do
    let _ ← keyword? word
  op "|"
  whileMore do
    if ← see (Ahead.op "|") then return false
    g.outerAttributes
    let _ ← g.pattern
    if ← op? ":" then
      let _ ← g.type true
    if ← see (Ahead.op "|") then return false
    op ","
    return true
  op "|"
  if ← op? "->" then
    let _ ← g.type true
    g.block false
  else
    let _ ← g.expr structs
  return .other

def exprAhead (ts : List Token) : Bool :=
  (Ahead.anyWord ts && !Ahead.keyword "as" ts) || Ahead.anyGroup ts || Ahead.literal ts
    || (Ahead.op "!" ts && !Ahead.op "!=" ts)
    || (Ahead.op "-" ts && !Ahead.op "-=" ts && !Ahead.op "->" ts)
    || (Ahead.op "*" ts && !Ahead.op "*=" ts) || (Ahead.op "|" ts && !Ahead.op "|=" ts)
    || (Ahead.op "&" ts && !Ahead.op "&=" ts) || Ahead.op ".." ts
    || (Ahead.op "<" ts && !Ahead.op "<=" ts && !Ahead.op "<<=" ts) || Ahead.op "::" ts
    || Ahead.lifetime ts || Ahead.op "#" ts

/-- An expression after a word that may stand alone. -/
def valueIfAny : Reader Unit := do
  if ← see exprAhead then
    let _ ← g.expr true

def breakRest (structs : Bool) : Reader Unit := do
  if ← lifetime? then require !(← see (Ahead.op ":"))
  if (← see exprAhead) && (structs || !(← see (Ahead.opens .brace))) then
    let _ ← g.expr true

def conditions : (limit : Nat) → Reader Unit
  | 0 => failure
  | limit + 1 => do
    keyword "if"
    let _ ← g.expr false
    g.block false
    if ← keyword? "else" then
      if ← see (Ahead.keyword "if") then conditions limit else g.block false

def loopOver : Reader Unit := do
  keyword "for"
  let _ ← g.patterns
  keyword "in"
  let _ ← g.expr false
  g.block true

def whileLoop : Reader Unit := do
  keyword "while"
  let _ ← g.expr false
  g.block true

/-- Whether an expression ends with a comma in the arm of a match, and where else it is no statement
without a semicolon. -/
def needsComma (kind : ExprKind) : Bool := kind ≠ .blockLike

def matchArm : Reader Unit := do
  g.outerAttributes
  let _ ← g.patterns
  if ← keyword? "if" then
    let _ ← g.expr true
  op "=>"
  let kind ← g.statementExpr
  if needsComma kind && !(← atEnd) then op ","
  else
    let _ ← op? ","

def matchRest : Reader Unit := do
  keyword "match"
  let _ ← g.expr false
  group .brace do
    g.innerAttributes
    whileMore do
      if ← atEnd then return false
      g.matchArm
      return true

def control : Reader ExprKind := do
  let ts ← rest
  if Ahead.keyword "if" ts then g.conditions (ts.length + 1)
  else if Ahead.keyword "while" ts then g.whileLoop
  else if Ahead.keyword "for" ts then g.loopOver
  else if Ahead.keyword "loop" ts then
    take 1
    g.block true
  else g.matchRest
  return .blockLike

def labeled : Reader ExprKind := do
  lifetime
  op ":"
  let ts ← rest
  if ["while", "for", "loop"].any (Ahead.keyword · ts) then g.control
  else
    g.block true
    return .blockLike

def closureAhead (ts : List Token) : Bool :=
  let next := Ahead.skip ts
  let third := Ahead.skip next
  Ahead.op "|" ts || Ahead.keyword "move" ts
    || (Ahead.keyword "for" ts && Ahead.op "<" next && (Ahead.lifetime third || Ahead.op ">" third))
    || (Ahead.keyword "const" ts && !Ahead.opens .brace next) || Ahead.keyword "static" ts
    || (Ahead.keyword "async" ts && (Ahead.op "|" next || Ahead.keyword "move" next))

/-- An operand that is no literal, without what precedes and follows it. -/
def compound (structs : Bool) : Reader ExprKind := do
  let ts ← rest
  let next := Ahead.skip ts
  if Ahead.keyword "async" ts && (Ahead.opens .brace next
      || (Ahead.keyword "move" next && Ahead.opens .brace (Ahead.skip next))) then
    take 1
    let _ ← keyword? "move"
    g.block false
    return .other
  else if Ahead.keyword "try" ts && Ahead.opens .brace next then
    take 1
    g.block false
    return .blockLike
  else if closureAhead ts then g.closure structs
  else if pathAhead ts || (Ahead.keyword "try" ts && (Ahead.op "!" next || Ahead.op "::" next)) then
    g.pathOperand structs
  else if Ahead.opens .parenthesis ts then g.parenthesized
  else if ← keyword? "break" then
    g.breakRest structs
    return .other
  else if ← keyword? "continue" then
    let _ ← lifetime?
    return .other
  else if ← keyword? "return" then
    g.valueIfAny
    return .other
  else if ← keyword? "become" then
    let _ ← g.expr true
    return .other
  else if Ahead.opens .bracket ts then g.arrayOrRepeat
  else if ← keyword? "let" then
    let _ ← g.patterns
    op "="
    let kind ← g.unary structs
    let _ ← g.operators structs Precedence.compare kind
    return .other
  else if ["if", "while", "for", "loop", "match"].any (Ahead.keyword · ts) then g.control
  else if ← keyword? "yield" then
    let left ← rest
    if !Ahead.atEnd left && !Ahead.op "," left && !Ahead.op ";" left then
      let _ ← g.expr true
    return .other
  else if (Ahead.keyword "unsafe" ts || Ahead.keyword "const" ts) && Ahead.opens .brace next then
    take 1
    g.block true
    return .blockLike
  else if Ahead.opens .brace ts then
    g.block true
    return .blockLike
  else if Ahead.op ".." ts then
    g.rangeRest structs
    return .range
  else if ← keyword? "_" then return .other
  else if Ahead.lifetime ts then g.labeled
  else failure

/-- An operand without what precedes and follows it. -/
def atom (structs : Bool) : Reader ExprKind := do
  match ← attempt literal with
  | some value => return .literal value
  | .none => g.compound structs

/-- An operand with the signs before it and the trailers after it. -/
def unaryRule (structs : Bool) : Reader ExprKind := do
  g.outerAttributes
  let ts ← rest
  if ← op? "&" then
    let next := Ahead.skip (← rest)
    if (← see (Ahead.keyword "raw")) && (Ahead.keyword "mut" next || Ahead.keyword "const" next) then
      take 2
    else
      let _ ← keyword? "mut"
    let _ ← g.unary structs
    return .other
  else if ["*", "!", "-"].any (Ahead.op · ts) then
    take 1
    let _ ← g.unary structs
    return .other
  else
    let kind ← g.atom structs
    g.trailers ((← rest).length + 1) kind

def exprRule (structs : Bool) : Reader ExprKind := do
  let kind ← g.unary structs
  g.operators structs Precedence.lowest kind

/-- An expression where a statement may end: a block is over where it closes, unless a point or a
question mark follows. -/
def statementExprRule : Reader ExprKind := do
  g.outerAttributes
  let ts ← rest
  let next := Ahead.skip ts
  let third := Ahead.skip next
  let forClosure := Ahead.op "<" next && (Ahead.lifetime third || Ahead.op ">" third)
  let kind ←
    if ["if", "while", "loop", "match"].any (Ahead.keyword · ts)
        || (Ahead.keyword "for" ts && !forClosure) then
      g.control
    else if Ahead.keyword "try" ts && Ahead.opens .brace next then
      take 1
      g.block false
      pure .blockLike
    else if Ahead.keyword "unsafe" ts
        || (Ahead.keyword "const" ts && Ahead.opens .brace next) then
      take 1
      g.block true
      pure .blockLike
    else if Ahead.opens .brace ts then
      g.block true
      pure .blockLike
    else if Ahead.lifetime ts then g.labeled
    else g.unary true
  if kind ≠ .blockLike then g.operators true Precedence.lowest kind
  else
    let after ← rest
    if (Ahead.op "." after && !Ahead.op ".." after) || Ahead.op "?" after then
      let kind ← g.trailers (after.length + 1) kind
      g.operators true Precedence.lowest kind
    else return kind

end TaskSpace.Reading.Grammar

import TaskSpace.Reading.Grammar.Signatures

/-!
Reading statements, and the items that may stand among them.
-/
namespace TaskSpace.Reading.Grammar

open Entry (Token Delimiter)

open Reader

variable (g : Grammar)

/-! ## Items -/

def signatureAhead (ts : List Token) : Bool :=
  (after? (do let _ ← qualifiers; keyword "fn") ts).isSome

def function : Reader Unit := do
  let signature ← g.signature
  write signature.tokens
  if !(← op? ";") then g.block true

/-- What is used. Each entry of the first braces may begin with a double colon if `rooted` says so. -/
def useTree : (limit : Nat) → (rooted : Bool) → Reader Unit
  | 0, _ => failure
  | limit + 1, rooted => do
    if ← op? "*" then return
    if ← see (Ahead.opens .brace) then
      group .brace <| commaEntries do
        let root ← if rooted then op? "::" else pure false
        useTree limit (rooted && !root)
    else
      require ((← see Ahead.ident)
        || ["self", "super", "crate", "try"].any (Ahead.keyword · (← rest)))
      take 1
      if ← op? "::" then useTree limit false
      else if ← keyword? "as" then
        if !(← keyword? "_") then ident

def useItem : Reader Unit := do
  keyword "use"
  let root ← op? "::"
  useTree ((← rest).length + 1) !root
  op ";"

def staticItem : Reader Unit := do
  keyword "static"
  let _ ← keyword? "mut"
  ident
  if ← op? ":" then
    let _ ← g.type true
    if ← op? ";" then return
  op "="
  let _ ← g.expr true
  op ";"

def constItem : Reader Unit := do
  keyword "const"
  require ((← see Ahead.ident) || (← see (Ahead.keyword "_")))
  take 1
  g.generics
  op ":"
  let _ ← g.type true
  if ← op? "=" then
    let _ ← g.expr true
  g.whereClause
  op ";"

/-- A name for a type. Among items its clause stands before the type, and among members after it. -/
def typeItem (member : Bool) : Reader Unit := do
  keyword "type"
  ident
  g.generics
  if ← see (Ahead.op ":") then
    announced (op ":") (g.boundsUpTo fun ts => Ahead.keyword "where" ts || clauseIsOver ts)
  if !member then g.whereClause
  if ← op? "=" then
    let _ ← g.type true
  if member then g.whereClause
  op ";"

def namedField : Reader Unit := do
  g.outerAttributes
  visibility
  if !(← keyword? "_") then ident
  op ":"
  let _ ← g.type true

def numberedField : Reader Unit := do
  g.outerAttributes
  visibility
  let _ ← g.type true

def structItem : Reader Unit := do
  keyword "struct"
  ident
  g.generics
  if ← see (Ahead.opens .parenthesis) then
    group .parenthesis (commaEntries g.numberedField)
    g.whereClause
    op ";"
  else
    g.whereClause
    if ← see (Ahead.opens .brace) then group .brace (commaEntries g.namedField) else op ";"

/-- A variant; a visibility before it is not written. -/
def variant : Reader Unit := do
  g.outerAttributes
  let _ ← collected visibility
  ident
  if ← see (Ahead.opens .brace) then group .brace (commaEntries g.namedField)
  else if ← see (Ahead.opens .parenthesis) then group .parenthesis (commaEntries g.numberedField)
  if ← op? "=" then
    let _ ← g.expr true

def enumItem : Reader Unit := do
  keyword "enum"
  ident
  g.generics
  g.whereClause
  group .brace (commaEntries g.variant)

def unionItem : Reader Unit := do
  keyword "union"
  ident
  g.generics
  g.whereClause
  group .brace (commaEntries g.namedField)

def macroItem : Reader Unit := do
  plainPath
  op "!"
  let _ ← if ← see Ahead.ident then ident else pure ()
  let d ← nextDelimiter
  anyGroup
  if d ≠ .brace then op ";"

/-- Whether a foreign item says that it is safe, or a static one that it is not. -/
def safetyAhead (ts : List Token) : Bool :=
  let next := Ahead.skip ts
  (Ahead.keyword "safe" ts && ["fn", "extern", "static"].any (Ahead.keyword · next))
    || (Ahead.keyword "unsafe" ts && Ahead.keyword "static" next)

/-- A member of a trait, of an implementation or of a block of foreign items. -/
def memberItem (foreign : Bool) : Reader Unit := do
  g.outerAttributes
  visibility
  if foreign && (← see safetyAhead) then take 1
  if (← see (Ahead.keyword "default")) && !(← see2 (Ahead.op "!")) then take 1
  let ts ← rest
  if signatureAhead ts then g.function
  else if Ahead.keyword "const" ts then g.constItem
  else if Ahead.keyword "static" ts then g.staticItem
  else if Ahead.keyword "type" ts then g.typeItem true
  else macroItem

def members (foreign : Bool) : Reader Unit :=
  group .brace do
    g.innerAttributes
    whileMore do
      if ← atEnd then return false
      g.memberItem foreign
      return true

def traitItem : Reader Unit := do
  let _ ← keyword? "unsafe"
  let _ ← keyword? "auto"
  keyword "trait"
  ident
  g.generics
  if ← op? "=" then
    g.boundsUpTo fun ts => Ahead.keyword "where" ts || Ahead.op ";" ts
    g.whereClause
    op ";"
  else
    if ← see (Ahead.op ":") then
      announced (op ":") <| g.boundsUpTo fun ts =>
        Ahead.keyword "where" ts || Ahead.opens .brace ts
    g.whereClause
    g.members false

/-- Whether an angle after `impl` holds parameters rather than starting a type. -/
def parametersAhead (ts : List Token) : Bool :=
  let next := Ahead.skip ts
  let third := Ahead.skip next
  Ahead.op "<" ts && (Ahead.op ">" next || Ahead.op "#" next || Ahead.keyword "const" next
    || ((Ahead.ident next || Ahead.lifetime next)
      && [":", ",", ">", "="].any (Ahead.op · third)))

def implItem : Reader Unit := do
  let _ ← keyword? "default"
  let _ ← keyword? "unsafe"
  keyword "impl"
  if ← see parametersAhead then g.generics
  let _ ← keyword? "const"
  let negative := (← see (Ahead.op "!")) && !(← see2 (Ahead.opens .brace))
  if negative then op "!"
  let _ ← g.type true
  if ← keyword? "for" then
    let _ ← g.type true
  else require !negative
  g.whereClause
  g.members false

def moduleItem : Reader Unit := do
  let _ ← keyword? "unsafe"
  keyword "mod"
  ident
  if !(← op? ";") then
    group .brace do
      g.innerAttributes
      whileMore do
        if ← atEnd then return false
        g.outerAttributes
        g.item
        return true

def foreignItem : Reader Unit := do
  let _ ← keyword? "unsafe"
  keyword "extern"
  if ← keyword? "crate" then
    if !(← keyword? "self") then ident
    if ← keyword? "as" then
      if !(← keyword? "_") then ident
    op ";"
  else
    let _ ← literal?
    g.members true

/-- A macro that is defined by one rule. -/
def ruleItem : Reader Unit := do
  keyword "macro"
  ident
  if ← see (Ahead.opens .parenthesis) then anyGroup
  require (← see (Ahead.opens .brace))
  anyGroup

def itemRule : Reader Unit := do
  visibility
  let ts ← rest
  let next := Ahead.skip ts
  let word (text : String) := Ahead.keyword text ts
  if signatureAhead ts then g.function
  else if word "extern" || (word "unsafe" && Ahead.keyword "extern" next) then g.foreignItem
  else if word "use" then useItem
  else if word "static" then g.staticItem
  else if word "const" then g.constItem
  else if word "mod" || (word "unsafe" && Ahead.keyword "mod" next) then g.moduleItem
  else if word "type" then g.typeItem false
  else if word "struct" then g.structItem
  else if word "enum" then g.enumItem
  else if word "union" && Ahead.ident next then g.unionItem
  else if word "trait" || (word "auto" && Ahead.keyword "trait" next)
      || (word "unsafe" && (Ahead.keyword "trait" next || Ahead.keyword "auto" next)) then
    g.traitItem
  else if word "impl" || (word "unsafe" && Ahead.keyword "impl" next)
      || (word "default" && !Ahead.op "!" next) then
    g.implItem
  else if word "macro" then ruleItem
  else macroItem

def itemAhead (ts : List Token) : Bool :=
  let next := Ahead.skip ts
  let third := Ahead.skip next
  let word (text : String) := Ahead.keyword text ts
  let follows (text : String) := Ahead.keyword text next
  ["pub", "extern", "use", "fn", "mod", "type", "struct", "enum", "trait", "impl", "macro"].any word
    || (word "crate" && !Ahead.op "::" next)
    || (word "static" && (follows "mut" || (Ahead.ident next
      && !(follows "async" && (Ahead.keyword "move" third || Ahead.op "|" third)))))
    || (word "const" && !(Ahead.opens .brace next || follows "static"
      || (follows "async" && ["unsafe", "extern", "fn"].all fun text => !Ahead.keyword text third)
      || follows "move" || Ahead.op "|" next))
    || (word "unsafe" && !Ahead.opens .brace next)
    || (word "async" && ["unsafe", "extern", "fn"].any follows)
    || (word "union" && Ahead.ident next)
    || (word "auto" && follows "trait")
    || (word "default" && (follows "unsafe" || follows "impl"))

/-! ## Statements -/

def endsWithBrace (tokens : List Token) : Bool := tokens.getLast? = some (.closing .brace)

def letStatement : Reader Unit := do
  keyword "let"
  let _ ← g.pattern
  if ← op? ":" then
    let _ ← g.type true
  if ← op? "=" then
    let (_, tokens) ← collected (g.expr true)
    write tokens
    if !endsWithBrace tokens then
      if ← keyword? "else" then g.block false
  op ";"

/-- What follows the path of a macro that stands as a statement or as an item of its own. -/
inductive MacroStart where
  | statement
  | item
  | expression
deriving DecidableEq, Repr

def macroStart (ts : List Token) : MacroStart :=
  match after? plainPath ts with
  | some after =>
    let next := Ahead.skip after
    let third := Ahead.skip next
    if !Ahead.op "!" after then .expression
    else if Ahead.ident next || Ahead.keyword "try" next then .item
    else if Ahead.opens .brace next
        && !((Ahead.op "." third && !Ahead.op ".." third) || Ahead.op "?" third) then
      .statement
    else .expression
  | .none => .expression

/-- A statement; the answer tells whether it must be the last one, as it has no semicolon. -/
def statement : Reader Bool := do
  g.outerAttributes
  let ts ← rest
  match macroStart ts with
  | .statement =>
    plainPath
    op "!"
    anyGroup
    let _ ← op? ";"
    return false
  | start =>
    if Ahead.keyword "let" ts then
      g.letStatement
      return false
    else if itemAhead ts || start = .item then
      g.item
      return false
    else
      let kind ← g.statementExpr
      if ← op? ";" then return false
      return needsComma kind && kind ≠ .macroCall .brace

def statements : Reader Unit :=
  whileMore do
    whileMore (op? ";")
    if ← atEnd then return false
    let last ← g.statement
    if ← atEnd then return false
    require !last
    return true

def blockRule (attributes : Bool) : Reader Unit :=
  group .brace do
    if attributes then g.innerAttributes
    g.statements

/-! ## Levels -/

/-- The grammar that reads what is nested with `g`. -/
def nest : Grammar :=
  { path := g.pathRule, type := g.typeRule, pattern := g.patternRule
    expr := g.exprRule, unary := g.unaryRule, operators := g.operatorsRule
    operand := g.operandRule, statementExpr := g.statementExprRule, block := g.blockRule
    item := g.itemRule }

def ofDepth : (depth : Nat) → Grammar
  | 0 => none
  | depth + 1 => nest (ofDepth depth)

/-- A grammar that reads all levels that tokens can have: no rule uses more than 8 others before it
takes a token. -/
def forTokens (tokens : List Token) : Grammar := ofDepth (8 * (tokens.length + 1))

end TaskSpace.Reading.Grammar

import TaskSpace.Entry.Token
import TaskSpace.Text.Digits
import TaskSpace.Text.Letter
import TaskSpace.Text.Quoted

/-!
Splitting a source text into tokens. Each scanner takes a text that starts with what it looks for,
and answers with the rest.
-/
namespace TaskSpace.Reading.Lexer

open Entry (Token Delimiter)

open Text (isIdentStart isIdentContinue isBlank isDigit isHexDigit digitValue)

abbrev Chars := List Char

def isAscii (c : Char) : Bool := c.toNat < 128

def taken (input rest : Chars) : String := String.ofList (input.take (input.length - rest.length))

/-! ## Words -/

def name (input : Chars) : Option Chars :=
  match input with
  | c :: rest => if isIdentStart c then some (rest.dropWhile isIdentContinue) else none
  | [] => none

/-- The words that have no raw form. -/
def neverRaw : List String := ["_", "super", "self", "Self", "crate"]

/-- A word, raw or not. -/
def word (input : Chars) : Option Chars :=
  match input with
  | 'r' :: '#' :: rest => do
    let after ← name rest
    if taken rest after ∈ neverRaw then none else some after
  | _ => name input

/-- The starts of literals, which no word has. -/
def literalStarts : List String :=
  ["r\"", "r#\"", "r##", "b\"", "b'", "br\"", "br#", "c\"", "cr\"", "cr#"]

def startsWith (input : Chars) (text : String) : Bool := text.toList.isPrefixOf input

/-! ## Comments -/

/-- The rest of a line, and what follows it. -/
def line : Chars → Chars × Chars
  | [] => ([], [])
  | '\n' :: rest => ([], '\n' :: rest)
  | '\r' :: '\n' :: rest => ([], '\n' :: rest)
  | c :: rest =>
    let (text, after) := line rest
    (c :: text, after)

/-- A comment in signs that nest, and what follows it. -/
def blockComment (depth : Nat) : Chars → Option (Chars × Chars)
  | '/' :: '*' :: rest => do
    let (text, after) ← blockComment (depth + 1) rest
    return ('/' :: '*' :: text, after)
  | '*' :: '/' :: rest =>
    if depth ≤ 1 then some (['*', '/'], rest)
    else do
      let (text, after) ← blockComment (depth - 1) rest
      return ('*' :: '/' :: text, after)
  | c :: rest => do
    let (text, after) ← blockComment depth rest
    return (c :: text, after)
  | [] => none

/-- Drops blanks and the comments that document nothing. -/
def skipBlanks : (limit : Nat) → Chars → Chars
  | 0, input => input
  | limit + 1, input =>
    if startsWith input "//" && (!startsWith input "///" || startsWith input "////")
        && !startsWith input "//!" then
      skipBlanks limit (line input).2
    else if startsWith input "/**/" then skipBlanks limit (input.drop 4)
    else if startsWith input "/*" && (!startsWith input "/**" || startsWith input "/***")
        && !startsWith input "/*!" then
      match blockComment 0 input with
      | some (_, rest) => skipBlanks limit rest
      | none => input
    else
      match input with
      | c :: rest =>
        if isBlank c || c = '\u200e' || c = '\u200f' then skipBlanks limit rest else input
      | [] => []

/-- A comment that documents: whether it documents what it is in, its text, and what follows. -/
def docComment (input : Chars) : Option (Bool × Chars × Chars) :=
  let block (inner : Bool) : Option (Bool × Chars × Chars) := do
    let (text, rest) ← blockComment 0 input
    return (inner, (text.drop 3).dropLast.dropLast, rest)
  if startsWith input "//!" then
    let (text, rest) := line (input.drop 3)
    some (true, text, rest)
  else if startsWith input "/*!" then block true
  else if startsWith input "///" then
    if startsWith input "////" then none
    else
      let (text, rest) := line (input.drop 3)
      some (false, text, rest)
  else if startsWith input "/**" && !startsWith input "/***" then block false
  else none

/-- Whether every carriage return stands before a line feed. -/
def returnsInPairs : Chars → Bool
  | '\r' :: '\n' :: rest => returnsInPairs rest
  | '\r' :: _ => false
  | _ :: rest => returnsInPairs rest
  | [] => true

def quoteDoc : Chars → String
  | [] => ""
  | '\x00' :: rest =>
    (if rest.head?.any fun c => '0' ≤ c && c ≤ '7' then "\\x00" else "\\0") ++ quoteDoc rest
  | c :: rest => Text.quoteChar c ++ quoteDoc rest

def docTokens (inner : Bool) (text : Chars) : List Token :=
  [.punct '#' false] ++ (if inner then [.punct '!' false] else [])
    ++ Token.group .bracket [.word "doc", .punct '=' false, .literal ("\"" ++ quoteDoc text ++ "\"")]

/-! ## Strings and characters -/

/-- The literals that hold text differ in the characters and the escapes that they admit. -/
inductive Quotation where
  | text
  | bytes
  /-- Text that a zero ends. -/
  | terminated
deriving DecidableEq, Repr

/-- The escape of a code point, after its `u`: the code point, and what follows. -/
def codePoint : Chars → Option (Nat × Chars)
  | '{' :: rest => digits 0 0 rest
  | _ => none
where
  digits (len value : Nat) : Chars → Option (Nat × Chars)
    | [] => none
    | c :: rest =>
      if isHexDigit c then
        if len = 6 then none else digits (len + 1) (16 * value + digitValue c) rest
      else if len = 0 then none
      else if c = '_' then digits len value rest
      else if c = '}' then if Nat.isValidChar value then some (value, rest) else none
      else none

/-- An escape, after its backslash. -/
def escape (q : Quotation) : Chars → Option Chars
  | 'x' :: a :: b :: rest =>
    let admitted := match q with
      | .text => '0' ≤ a && a ≤ '7'
      | .bytes => true
      | .terminated => !(a = '0' && b = '0')
    if isHexDigit a && isHexDigit b && admitted then some rest else none
  | 'u' :: rest =>
    if q = .bytes then none
    else do
      let (value, rest) ← codePoint rest
      if q = .terminated && value = 0 then none else some rest
  | c :: rest =>
    if c ∈ ['n', 'r', 't', '\\', '\'', '"'] || (c = '0' && q ≠ .terminated) then some rest else none
  | [] => none

/-- The blanks after a backslash at the end of a line. -/
def continueLine (afterReturn : Bool) : Chars → Option Chars
  | [] => none
  | c :: rest =>
    if afterReturn then if c = '\n' then continueLine false rest else none
    else if c = ' ' || c = '\t' || c = '\n' || c = '\r' then continueLine (c = '\r') rest
    else some (c :: rest)

def suffix (input : Chars) : Chars := (name input).getD input

/-- A literal with escapes, after its opening quote. -/
def cooked (q : Quotation) : (limit : Nat) → Chars → Option Chars
  | 0, _ => none
  | limit + 1, input =>
    match input with
    | '"' :: rest => some (suffix rest)
    | '\r' :: '\n' :: rest => cooked q limit rest
    | '\r' :: _ => none
    | '\\' :: '\n' :: rest => continueLine false rest >>= cooked q limit
    | '\\' :: '\r' :: rest => continueLine true rest >>= cooked q limit
    | '\\' :: rest => escape q rest >>= cooked q limit
    | c :: rest =>
      if (q = .bytes && !isAscii c) || (q = .terminated && c = '\x00') then none
      else cooked q limit rest
    | [] => none

/-- A literal without escapes, after its opening quote. It ends with a quote and as many number
signs as came before the opening one. -/
def rawBody (q : Quotation) (signs : Nat) : Chars → Option Chars
  | [] => none
  | '\r' :: '\n' :: rest => rawBody q signs rest
  | '\r' :: _ => none
  | c :: rest =>
    if c = '"' && startsWith rest (String.ofList (List.replicate signs '#')) then
      some (suffix (rest.drop signs))
    else if (q = .bytes && !isAscii c) || (q = .terminated && c = '\x00') then none
    else rawBody q signs rest

/-- A literal without escapes, after its `r`. -/
def raw (q : Quotation) (input : Chars) : Option Chars :=
  let signs := (input.takeWhile (· = '#')).length
  match input.drop signs with
  | '"' :: rest => if signs > 255 then none else rawBody q signs rest
  | _ => none

/-- One character between single quotes, after the first. -/
def character (q : Quotation) (input : Chars) : Option Chars := do
  let rest ← match input with
    | '\\' :: rest => escape q rest
    | c :: rest => if q = .bytes && !isAscii c then none else some rest
    | [] => none
  match rest with
  | '\'' :: rest => some (suffix rest)
  | _ => none

/-! ## Numbers -/

/-- A number ends where no name goes on. -/
def wordBreak (input : Chars) : Option Chars :=
  if input.head?.any isIdentContinue then none else some input

/-- The name that follows a number, and the end of the word. -/
def numberSuffix (input : Chars) : Option Chars := wordBreak (suffix input)

def skipDigits (input : Chars) : Chars := input.dropWhile fun c => isDigit c || c = '_'

/-- An exponent, after its letter. Without a digit there is none, and the number ends with
`before`. -/
def exponent (before : Option Chars) (signed valued : Bool) : Chars → Option Chars
  | [] => if valued then some [] else before
  | c :: rest =>
    if (c = '+' || c = '-') && !valued then
      if signed then before else exponent before true valued rest
    else if isDigit c then exponent before signed true rest
    else if c = '_' then exponent before signed valued rest
    else if valued then some (c :: rest)
    else before

/-- A number with a point or an exponent, without its suffix. -/
def floatDigits (input : Chars) : Option Chars :=
  if !input.head?.any isDigit then none
  else
    match skipDigits input with
    | '.' :: rest =>
      if rest.head?.any fun c => c = '.' || isIdentStart c then none
      else
        match skipDigits rest with
        | 'e' :: after => exponent (some ('e' :: after)) false false after
        | 'E' :: after => exponent (some ('E' :: after)) false false after
        | after => some after
    | 'e' :: after | 'E' :: after => exponent none false false after
    | _ => none

/-- The digits of a whole number. A decimal digit that the base does not have is refused; a letter
that it does not have starts a suffix. -/
def intDigits (base : Nat) (empty : Bool) : Chars → Option Chars
  | [] => if empty then none else some []
  | c :: rest =>
    if isDigit c then if digitValue c < base then intDigits base false rest else none
    else if isHexDigit c && digitValue c < base then intDigits base false rest
    else if c = '_' then if empty && base = 10 then none else intDigits base empty rest
    else if empty then none
    else some (c :: rest)

def int (input : Chars) : Option Chars := do
  let rest ← match input with
    | '0' :: 'x' :: rest => intDigits 16 true rest
    | '0' :: 'o' :: rest => intDigits 8 true rest
    | '0' :: 'b' :: rest => intDigits 2 true rest
    | _ => intDigits 10 true input
  numberSuffix rest

def float (input : Chars) : Option Chars := floatDigits input >>= numberSuffix

def literal (input : Chars) : Option Chars :=
  let quoted : Option Chars :=
    match input with
    | '"' :: rest => cooked .text (rest.length + 1) rest
    | 'r' :: rest => raw .text rest
    | 'b' :: '"' :: rest => cooked .bytes (rest.length + 1) rest
    | 'b' :: 'r' :: rest => raw .bytes rest
    | 'c' :: '"' :: rest => cooked .terminated (rest.length + 1) rest
    | 'c' :: 'r' :: rest => raw .terminated rest
    | 'b' :: '\'' :: rest => character .bytes rest
    | '\'' :: rest => character .text rest
    | _ => none
  quoted <|> float input <|> int input

/-! ## Tokens -/

def punctuation : List Char := "~!@#$%^&*-=+|;:,<.>/?'".toList

def isPunct (input : Chars) : Bool :=
  !startsWith input "//" && !startsWith input "/*" && input.head?.any (· ∈ punctuation)

def punct (input : Chars) : Option (Token × Chars) :=
  if !isPunct input then none
  else
    match input with
    | '\'' :: rest => do
      let after ← word rest
      if after.head? = some '\'' || (after.head? = some '#' && !startsWith rest "r#") then none
      else some (.punct '\'' true, rest)
    | c :: rest => some (.punct c (isPunct rest), rest)
    | [] => none

def leaf (input : Chars) : Option (Token × Chars) :=
  let asLiteral := (literal input).map fun rest => (Token.literal (taken input rest), rest)
  let asWord :=
    if literalStarts.any (startsWith input) then none
    else (word input).map fun rest => (Token.word (taken input rest), rest)
  asLiteral <|> punct input <|> asWord

/-- The tokens of a text, inside the delimiters that are still open. -/
def tokens : (limit : Nat) → (opened : List Delimiter) → Chars → Option (List Token)
  | 0, _, _ => none
  | limit + 1, opened, input =>
    let input := skipBlanks (input.length + 1) input
    match docComment input with
    | some (inner, text, rest) =>
      if returnsInPairs text then (docTokens inner text ++ ·) <$> tokens limit opened rest else none
    | none =>
      match input with
      | [] => if opened.isEmpty then some [] else none
      | c :: rest =>
        match Delimiter.ofOpening? c, Delimiter.ofClosing? c, opened with
        | some d, _, _ => (.opening d :: ·) <$> tokens limit (d :: opened) rest
        | none, some d, top :: opened =>
          if top = d then (.closing d :: ·) <$> tokens limit opened rest else none
        | none, some _, [] => none
        | none, none, _ => do
          let (token, rest) ← leaf input
          (token :: ·) <$> tokens limit opened rest

/-- The tokens of a text, unless it does not split into tokens. A byte order mark in front is no
part of the text. -/
def tokenize (text : String) : Option (List Token) :=
  let input := match text.toList with
    | '\ufeff' :: rest => rest
    | chars => chars
  tokens (input.length + 1) [] input

end TaskSpace.Reading.Lexer

import PictureSearch.Query.SyntaxError
import PictureSearch.Text.Classes

/-!
# The lexer

A state holds the token being built.  `State.step` takes one character: either the character is
taken in, with or without completing a token, or the token was complete before it and the
character is handed back, to be taken by `start`.  A character met at the start is never handed
back, so every character is fed at most twice.

`scan` cuts a whole text: the lexemes up to the first error, and that error.
-/

namespace PictureSearch.Query

/-! ## States -/

/-- The token being built, with the offset of its first character. -/
inductive State
  | start
  | word (offset : Nat) (text : String)
  | integer (offset : Nat) (value : Int64)
  | quoted (offset : Nat) (quote : Char) (text : String)
  /-- Met `>` or `<`: an equals sign may widen it. -/
  | angle (offset : Nat) (operator : Operator)
  /-- Met `!`: either an inequality or a negation. -/
  | bang (offset : Nat)
  deriving DecidableEq, Repr

/-- A character taken in: the lexeme it completed, if any, and the state it leaves. -/
structure Taken where
  lexeme : Option Lexeme
  next : State
  deriving DecidableEq, Repr

inductive Step
  | taken (t : Taken)
  /-- The lexeme was complete before the character. -/
  | handedBack (lexeme : Lexeme)
  deriving DecidableEq, Repr

/-! ## Character classes -/

def isWordStart (c : Char) : Bool := Text.isAlphabetic c || c == '_' || c == '%'

def isWordChar (c : Char) : Bool := Text.isAlphanumeric c || c == '_' || c == '%'

def isQuote (c : Char) : Bool := c == '"' || c == '\''

/-! ## Algorithm -/

/-- The number as a signed word, unless it does not fit. -/
def int64? (n : Int) : Option Int64 :=
  if Int64.minValue.toInt ≤ n ∧ n ≤ Int64.maxValue.toInt then some (Int64.ofInt n) else none

/-- One more decimal digit behind a literal; both the product and the sum have to fit. -/
def appendDigit (value : Int64) (digit : Char) : Option Int64 :=
  (int64? (value.toInt * 10)).bind fun tens => int64? (tens.toInt + (digit.toNat - '0'.toNat : Nat))

/-- The character goes on with the token being built. -/
def keep (next : State) : Except SyntaxError Taken := .ok ⟨none, next⟩

/-- The character completes a token. -/
def complete (token : Token) (offset : Nat) : Except SyntaxError Taken :=
  .ok ⟨some ⟨token, offset⟩, .start⟩

/-- Takes the first character of a token, or a blank. -/
def start (c : Char) (offset : Nat) : Except SyntaxError Taken :=
  if Text.isBlank c then keep .start
  else if c.isDigit then keep (.integer offset (Int64.ofNat (c.toNat - '0'.toNat)))
  else if isWordStart c then keep (.word offset (String.singleton c))
  else
    match c with
    | '"' => keep (.quoted offset c "")
    | '\'' => keep (.quoted offset c "")
    | '(' => complete .leftParen offset
    | ')' => complete .rightParen offset
    | '&' => complete .and offset
    | '|' => complete .or offset
    | '=' => complete (.op .eq) offset
    | '@' => complete (.op .has) offset
    | '>' => keep (.angle offset .gt)
    | '<' => keep (.angle offset .lt)
    | '!' => keep (.bang offset)
    | _ => .error ⟨.unexpectedCharacter c, offset⟩

/-- The operator that an equals sign makes of another. -/
def Operator.widened : Operator → Operator
  | .gt => .gte
  | .lt => .lte
  | op => op

namespace State

/-- Takes the character `c` at byte `offset`. -/
def step (s : State) (c : Char) (offset : Nat) : Except SyntaxError Step :=
  match s with
  | .start => (Query.start c offset).map .taken
  | .word first text =>
    if isWordChar c then (keep (.word first (text.push c))).map .taken
    else if isQuote c then .error ⟨.quoteInWord, offset⟩
    else .ok (.handedBack ⟨.word text, first⟩)
  | .integer first value =>
    if c.isDigit then
      match appendDigit value c with
      | some value => (keep (.integer first value)).map .taken
      | none => .error ⟨.integerOutOfRange, first⟩
    else if Text.isAlphanumeric c || c == '_' then .error ⟨.letterInInteger, offset⟩
    else if c == '%' then .error ⟨.wildcardInInteger, offset⟩
    else if isQuote c then .error ⟨.quoteInInteger, offset⟩
    else .ok (.handedBack ⟨.integer value, first⟩)
  | .quoted first quote text =>
    if c = quote then (complete (.quoted text) first).map .taken
    else (keep (.quoted first quote (text.push c))).map .taken
  | .angle first operator =>
    if c = '=' then (complete (.op operator.widened) first).map .taken
    else .ok (.handedBack ⟨.op operator, first⟩)
  | .bang first =>
    if c = '=' then (complete (.op .neq) first).map .taken
    else .ok (.handedBack ⟨.not, first⟩)

/-- The token still being built when the text ends. -/
def finish : State → Except SyntaxError (Option Lexeme)
  | .start => .ok none
  | .word offset text => .ok (some ⟨.word text, offset⟩)
  | .integer offset value => .ok (some ⟨.integer value, offset⟩)
  | .quoted offset _ _ => .error ⟨.unclosedQuote, offset⟩
  | .angle offset operator => .ok (some ⟨.op operator, offset⟩)
  | .bang offset => .ok (some ⟨.not, offset⟩)

end State

/-- The lexemes before the first error, and that error if there is one. -/
structure Scan where
  lexemes : List Lexeme
  stop : Option SyntaxError
  deriving DecidableEq, Repr

/-- A scan behind the lexeme that a character completed. -/
def Scan.after (lexeme : Option Lexeme) (s : Scan) : Scan :=
  { s with lexemes := lexeme.toList ++ s.lexemes }

/-- Cuts the characters from byte `offset` on, the state `s` being reached there. -/
def scanFrom (s : State) (offset : Nat) : List Char → Scan
  | [] =>
    match s.finish with
    | .ok lexeme => ⟨lexeme.toList, none⟩
    | .error e => ⟨[], some e⟩
  | c :: cs =>
    match s.step c offset with
    | .error e => ⟨[], some e⟩
    | .ok (.taken t) => (scanFrom t.next (offset + c.utf8Size) cs).after t.lexeme
    | .ok (.handedBack lexeme) =>
      match start c offset with
      | .error e => ⟨[lexeme], some e⟩
      | .ok t => ((scanFrom t.next (offset + c.utf8Size) cs).after t.lexeme).after (some lexeme)

/-- Cuts a text into lexemes. -/
def scan (text : String) : Scan := scanFrom .start 0 text.toList

end PictureSearch.Query

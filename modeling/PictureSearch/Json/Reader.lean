import PictureSearch.Json.Spelling

/-!
# Reading JSON

A text is cut into tokens first: blanks are dropped, numbers, words and strings are checked for
their own form.  The tokens are then put together with a stack of the arrays and objects that are
open, so that a value may be nested to any depth.
-/

namespace PictureSearch.Json

/-! ## Tokens -/

inductive Token
  | leftBrace
  | rightBrace
  | leftBracket
  | rightBracket
  | colon
  | comma
  /-- A null, a boolean or a number. -/
  | scalar (value : Json)
  /-- The characters between the quotes. -/
  | string (spelling : String)

/-- The token being read, its characters in reverse. -/
inductive Scanning
  | gap
  | word (read : List Char)
  | text (read : List Char)
  /-- Behind a backslash. -/
  | escaped (read : List Char)
  /-- Behind a backslash and `u`, with the number of digits still wanted. -/
  | code (read : List Char) (digits : Nat)

/-- Blanks between tokens. -/
def isGap (c : Char) : Bool := c == ' ' || c == '\t' || c == '\n' || c == '\r'

/-- Characters that words and numbers are made of. -/
def isWordChar (c : Char) : Bool := c.isAlphanum || c == '+' || c == '-' || c == '.'

def mark? : Char → Option Token
  | '\x7b' => some .leftBrace
  | '\x7d' => some .rightBrace
  | '[' => some .leftBracket
  | ']' => some .rightBracket
  | ':' => some .colon
  | ',' => some .comma
  | _ => none

/-- The token of a run of word characters. -/
def scalar? (cs : List Char) : Option Token :=
  if cs = ['n', 'u', 'l', 'l'] then some (.scalar .null)
  else if cs = ['t', 'r', 'u', 'e'] then some (.scalar (.bool true))
  else if cs = ['f', 'a', 'l', 's', 'e'] then some (.scalar (.bool false))
  else if isNumber cs then some (.scalar (.number (String.ofList cs)))
  else none

/-- A character between tokens. -/
def scanGap (c : Char) : Option (List Token × Scanning) :=
  if isGap c then some ([], .gap)
  else if c = '"' then some ([], .text [])
  else if isWordChar c then some ([], .word [c])
  else (mark? c).map fun t => ([t], .gap)

/-- The tokens that a character completes, and what is being read behind it. -/
def scanChar (s : Scanning) (c : Char) : Option (List Token × Scanning) :=
  match s with
  | .gap => scanGap c
  | .word read =>
    if isWordChar c then some ([], .word (c :: read))
    else do
      let t ← scalar? read.reverse
      let (ts, next) ← scanGap c
      return (t :: ts, next)
  | .text read =>
    if c = '"' then some ([.string (String.ofList read.reverse)], .gap)
    else if c = '\\' then some ([], .escaped (c :: read))
    else if c.toNat < 32 then none
    else some ([], .text (c :: read))
  | .escaped read =>
    if c = 'u' then some ([], .code (c :: read) 4)
    else (shortEscape? c).map fun _ => ([], .text (c :: read))
  | .code read digits =>
    (hexValue? c).map fun _ =>
      ([], if digits ≤ 1 then .text (c :: read) else .code (c :: read) (digits - 1))

/-- The tokens of the characters behind what is being read. -/
def tokensFrom (s : Scanning) : List Char → Option (List Token)
  | [] =>
    match s with
    | .gap => some []
    | .word read => (scalar? read.reverse).map ([·])
    | _ => none
  | c :: cs => do
    let (ts, next) ← scanChar s c
    let rest ← tokensFrom next cs
    return ts ++ rest

/-! ## Values -/

/-- An array or object that is open, with what it holds so far in reverse. -/
inductive Enclosure
  | array (elements : List Json)
  /-- The key waits for its value. -/
  | object (members : List (String × Json)) (key : String)

/-- What has to come next. -/
inductive Expected
  | value
  /-- A value or the end of an array just opened. -/
  | valueOrEnd
  | key
  /-- A key or the end of an object just opened. -/
  | keyOrEnd
  | colon (key : String)
  /-- A comma or the end of the innermost enclosure; at the top level the end of the text. -/
  | separator (done : Json)

structure Assembly where
  expected : Expected
  /-- The enclosures around the value that is expected or done, innermost first. -/
  enclosures : List Enclosure
  /-- The members so far, in reverse, of the object whose key is expected. -/
  members : List (String × Json)

namespace Assembly

def initial : Assembly := ⟨.value, [], []⟩

/-- A value begins. -/
def takeValue (a : Assembly) : Token → Option Assembly
  | .scalar v => some { a with expected := .separator v }
  | .string s => some { a with expected := .separator (.string s) }
  | .leftBracket => some { a with expected := .valueOrEnd, enclosures := .array [] :: a.enclosures }
  | .leftBrace => some { a with expected := .keyOrEnd, members := [] }
  | _ => none

/-- A value is done. -/
def takeSeparator (a : Assembly) (v : Json) : Token → Option Assembly
  | .comma =>
    match a.enclosures with
    | .array es :: rest => some ⟨.value, .array (v :: es) :: rest, []⟩
    | .object ms key :: rest => some ⟨.key, rest, (key, v) :: ms⟩
    | [] => none
  | .rightBracket =>
    match a.enclosures with
    | .array es :: rest => some ⟨.separator (.array (v :: es).reverse), rest, []⟩
    | _ => none
  | .rightBrace =>
    match a.enclosures with
    | .object ms key :: rest => some ⟨.separator (.object ((key, v) :: ms).reverse), rest, []⟩
    | _ => none
  | _ => none

def take (a : Assembly) (t : Token) : Option Assembly :=
  match a.expected, t with
  | .value, t => a.takeValue t
  | .valueOrEnd, .rightBracket =>
    some { a with expected := .separator (.array []), enclosures := a.enclosures.tail }
  | .valueOrEnd, t => a.takeValue t
  | .key, .string key => some { a with expected := .colon key }
  | .keyOrEnd, .string key => some { a with expected := .colon key }
  | .keyOrEnd, .rightBrace => some { a with expected := .separator (.object []) }
  | .colon key, .colon =>
    some ⟨.value, .object a.members key :: a.enclosures, []⟩
  | .separator v, t => a.takeSeparator v t
  | _, _ => none

def finish? (a : Assembly) : Option Json :=
  match a.expected, a.enclosures with
  | .separator v, [] => some v
  | _, _ => none

end Assembly

/-- The value of a list of tokens. -/
def ofTokens? (tokens : List Token) : Option Json := do
  let a ← tokens.foldlM Assembly.take .initial
  a.finish?

/-- The value that a text spells. -/
def read? (s : String) : Option Json := do
  let tokens ← tokensFrom .gap s.toList
  ofTokens? tokens

end PictureSearch.Json

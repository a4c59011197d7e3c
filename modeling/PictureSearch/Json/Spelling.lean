import PictureSearch.Text.Pieces

/-!
# JSON values

A value keeps its numbers and strings as they are spelled: a number as its digits, a string as the
characters between its quotes with the escapes still in place.  So a number has no size limit and
a string may hold the escape of half a surrogate pair, which no text has; both matter only to who
asks for a word or for a text.

`escape` spells a text between quotes with as few escapes as possible: the quote, the backslash
and the controls below the space.  `unescape` reads every spelling.
-/

namespace PictureSearch

inductive Json
  | null
  | bool (value : Bool)
  | number (spelling : String)
  | string (spelling : String)
  | array (elements : List Json)
  /-- The members in the order they are written, each key as it is spelled. -/
  | object (members : List (String × Json))
  deriving Repr, Inhabited

namespace Json

/-! ## Strings -/

/-- The lower-case digit of a number below sixteen. -/
def hexDigit (n : Nat) : Char := Nat.digitChar n

/-- The spelling of one character. -/
def escapeChar (c : Char) : List Char :=
  match c with
  | '"' => ['\\', '"']
  | '\\' => ['\\', '\\']
  | '\x08' => ['\\', 'b']
  | '\t' => ['\\', 't']
  | '\n' => ['\\', 'n']
  | '\x0c' => ['\\', 'f']
  | '\r' => ['\\', 'r']
  | _ =>
    if c.toNat < 32 then
      ['\\', 'u', '0', '0', hexDigit (c.toNat / 16), hexDigit (c.toNat % 16)]
    else [c]

def escape (s : String) : String := String.ofList (s.toList.flatMap escapeChar)

/-- The value of a hexadecimal digit. -/
def hexValue? (c : Char) : Option Nat :=
  if c.isDigit then some (c.toNat - '0'.toNat)
  else if 'a' ≤ c ∧ c ≤ 'f' then some (c.toNat - 'a'.toNat + 10)
  else if 'A' ≤ c ∧ c ≤ 'F' then some (c.toNat - 'A'.toNat + 10)
  else none

/-- The number written by four hexadecimal digits. -/
def hex4? (a b c d : Char) : Option Nat := do
  let a ← hexValue? a
  let b ← hexValue? b
  let c ← hexValue? c
  let d ← hexValue? d
  return ((a * 16 + b) * 16 + c) * 16 + d

/-- The character that a one-letter escape stands for. -/
def shortEscape? : Char → Option Char
  | '"' => some '"'
  | '\\' => some '\\'
  | '/' => some '/'
  | 'b' => some '\x08'
  | 'f' => some '\x0c'
  | 'n' => some '\n'
  | 'r' => some '\r'
  | 't' => some '\t'
  | _ => none

/-- The characters of a spelling.  A code of the surrogate range counts only in a pair. -/
def unescapeChars : List Char → Option (List Char)
  | [] => some []
  | '\\' :: 'u' :: a :: b :: c :: d :: rest =>
    match hex4? a b c d with
    | none => none
    | some high =>
      if high < 0xD800 ∨ 0xDFFF < high then (unescapeChars rest).map (Char.ofNat high :: ·)
      else if 0xDBFF < high then none
      else
        match rest with
        | '\\' :: 'u' :: e :: f :: g :: h :: rest =>
          match hex4? e f g h with
          | none => none
          | some low =>
            if low < 0xDC00 ∨ 0xDFFF < low then none
            else
              (unescapeChars rest).map
                (Char.ofNat (0x10000 + (high - 0xD800) * 1024 + (low - 0xDC00)) :: ·)
        | _ => none
  | '\\' :: c :: rest =>
    match shortEscape? c with
    | none => none
    | some c => (unescapeChars rest).map (c :: ·)
  | c :: rest => (unescapeChars rest).map (c :: ·)

/-- The text of a spelling; none if it holds half a surrogate pair. -/
def unescape (spelling : String) : Option String :=
  (unescapeChars spelling.toList).map String.ofList

/-! ## Numbers -/

/-- Whether the characters are a fraction and an exponent, both optional. -/
def isNumberTail (cs : List Char) : Bool :=
  let exponent (cs : List Char) : Bool :=
    match cs with
    | [] => true
    | e :: sign :: digits =>
      (e == 'e' || e == 'E') &&
        if sign == '+' || sign == '-' then !digits.isEmpty && digits.all Char.isDigit
        else (sign :: digits).all Char.isDigit
    | _ => false
  match cs with
  | '.' :: d :: rest => d.isDigit && exponent (rest.dropWhile Char.isDigit)
  | cs => exponent cs

/-- Whether the characters spell a number: no leading zero, digits on both sides of the point. -/
def isNumber (cs : List Char) : Bool :=
  match (match cs with | '-' :: rest => rest | _ => cs) with
  | '0' :: rest => isNumberTail rest
  | d :: rest => d.isDigit && isNumberTail (rest.dropWhile Char.isDigit)
  | [] => false

/-! ## Access -/

/-- The text of a string. -/
def text? : Json → Option String
  | .string spelling => unescape spelling
  | _ => none

def bool? : Json → Option Bool
  | .bool b => some b
  | _ => none

/-- The natural number below `bound` that a number spells without sign, point and exponent. -/
def natBelow? (bound : Nat) : Json → Option Nat
  | .number spelling => (Text.decimal? spelling.toList).filter (· < bound)
  | _ => none

/-- The value of a member, the last one if the key is repeated: for an object that is no record,
whose members are asked for one by one. -/
def get? (key : String) : Json → Option Json
  | .object members =>
    (members.reverse.find? fun m => unescape m.1 == some key).map (·.2)
  | _ => none

/-! ## Construction -/

def ofText (s : String) : Json := .string (escape s)

def ofNat (n : Nat) : Json := .number (toString n)

def ofInt (n : Int) : Json := .number (toString n)

/-- An object with the given texts as keys. -/
def ofMembers (members : List (String × Json)) : Json :=
  .object (members.map fun m => (escape m.1, m.2))

/-- The value, or null in its place. -/
def ofOption {α : Type} (f : α → Json) : Option α → Json
  | none => .null
  | some a => f a

def ofList {α : Type} (f : α → Json) (l : List α) : Json := .array (l.map f)

end Json

end PictureSearch

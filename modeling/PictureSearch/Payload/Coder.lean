/-!
# Coders

A coder writes values of a type as bytes and reads them back from the front of a list of bytes.
Coders of records are put together from those of their fields: pairs, options, lists, and a change
of type.  Numbers are written low seven bits first, with the high bit set on every byte but the
last.
-/

namespace PictureSearch.Payload

/-- The first problem met in bytes read from left to right. -/
inductive Malformed
  | endOfBytes
  | varint
  | bool
  | utf8
  | option
  | version
  deriving DecidableEq, Repr

def Malformed.message : Malformed → String
  | .endOfBytes => "Hit the end of buffer, expected more data"
  | .varint => "Found a varint that didn't terminate. Is the usize too big for this platform?"
  | .bool => "Found a bool that wasn't 0 or 1"
  | .utf8 => "Tried to parse invalid utf-8"
  | .option => "Found an Option discriminant that wasn't 0 or 1"
  | .version => "Serde Deserialization Error"

/-- Writes values, and reads them from the front of bytes together with the bytes left. -/
structure Coder (α : Type) where
  encode : α → List UInt8
  decode : List UInt8 → Except Malformed (α × List UInt8)

namespace Coder

variable {α β : Type}

/-! ## Bytes and numbers -/

/-- One byte as it is. -/
def byte : Coder UInt8 where
  encode b := [b]
  decode
    | [] => .error .endOfBytes
    | b :: rest => .ok (b, rest)

/-- A number in at most `bytes` groups of seven bits. -/
def encodeVarint : (bytes : Nat) → Nat → List UInt8
  | 0, _ => []
  | bytes + 1, n =>
    if n < 128 then [UInt8.ofNat n] else UInt8.ofNat (n % 128 + 128) :: encodeVarint bytes (n / 128)

/-- Reads a number of at most `bytes` groups, where the last group allowed is at most `last`. -/
def decodeVarint (last : Nat) : (bytes : Nat) → List UInt8 → Except Malformed (Nat × List UInt8)
  | 0, _ => .error .varint
  | _ + 1, [] => .error .endOfBytes
  | bytes + 1, b :: rest =>
    if b.toNat < 128 then
      if bytes = 0 ∧ last < b.toNat then .error .varint else .ok (b.toNat, rest)
    else
      match decodeVarint last bytes rest with
      | .error e => .error e
      | .ok (n, rest) => .ok (b.toNat - 128 + 128 * n, rest)

/-- Numbers of at most `bytes` groups. -/
def varint (bytes last : Nat) : Coder Nat := ⟨encodeVarint bytes, decodeVarint last bytes⟩

/-- Numbers below `2 ^ 64`. -/
def word64 : Coder Nat := varint 10 1

/-- Numbers below `2 ^ 32`. -/
def word32 : Coder Nat := varint 5 15

/-! ## Change of type -/

/-- Reads values with `read`, which may refuse what the coder has read. -/
def refine (c : Coder α) (read : α → Except Malformed β) (write : β → α) : Coder β where
  encode b := c.encode (write b)
  decode bytes :=
    match c.decode bytes with
    | .error e => .error e
    | .ok (a, rest) => (read a).map fun b => (b, rest)

/-- Values of one type written as values of another. -/
def map (c : Coder α) (read : α → β) (write : β → α) : Coder β :=
  c.refine (fun a => .ok (read a)) write

/-! ## Compound values -/

/-- Two values, one behind the other. -/
def pair (c : Coder α) (d : Coder β) : Coder (α × β) where
  encode p := c.encode p.1 ++ d.encode p.2
  decode bytes :=
    match c.decode bytes with
    | .error e => .error e
    | .ok (a, rest) =>
      match d.decode rest with
      | .error e => .error e
      | .ok (b, rest) => .ok ((a, b), rest)

/-- A flag, as the byte 0 or 1. -/
def bool : Coder Bool :=
  byte.refine
    (fun b => if b = 0 then .ok false else if b = 1 then .ok true else .error .bool)
    (fun b => if b then 1 else 0)

/-- A value behind the byte 1, or the byte 0. -/
def option (c : Coder α) : Coder (Option α) where
  encode
    | none => [0]
    | some a => 1 :: c.encode a
  decode
    | [] => .error .endOfBytes
    | b :: rest =>
      if b = 0 then .ok (none, rest)
      else if b = 1 then
        match c.decode rest with
        | .error e => .error e
        | .ok (a, rest) => .ok (some a, rest)
      else .error .option

/-- The given number of values, one behind the other. -/
def decodeMany (c : Coder α) : (count : Nat) → List UInt8 → Except Malformed (List α × List UInt8)
  | 0, bytes => .ok ([], bytes)
  | count + 1, bytes =>
    match c.decode bytes with
    | .error e => .error e
    | .ok (a, rest) =>
      match decodeMany c count rest with
      | .error e => .error e
      | .ok (as, rest) => .ok (a :: as, rest)

/-- A list of values behind their number. -/
def list (c : Coder α) : Coder (List α) where
  encode as := word64.encode as.length ++ as.flatMap c.encode
  decode bytes :=
    match word64.decode bytes with
    | .error e => .error e
    | .ok (count, rest) => decodeMany c count rest

/-! ## Text -/

/-- The bytes of a text. -/
def utf8 (s : String) : List UInt8 := s.toUTF8.data.toList

/-- The text of bytes. -/
def ofUtf8? (bytes : List UInt8) : Option String := String.fromUTF8? ⟨bytes.toArray⟩

/-- A text behind the number of its bytes. -/
def string : Coder String where
  encode s := word64.encode (utf8 s).length ++ utf8 s
  decode bytes :=
    match word64.decode bytes with
    | .error e => .error e
    | .ok (count, rest) =>
      if rest.length < count then .error .endOfBytes
      else
        match ofUtf8? (rest.take count) with
        | none => .error .utf8
        | some s => .ok (s, rest.drop count)

end Coder

end PictureSearch.Payload

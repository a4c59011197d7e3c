import PictureSearch.Json.Spelling

/-!
# Fields of a record

A record is written as an object or as the array of its fields in the order they are declared.  In
an object the fields may come in any order, none of them twice, and other keys are passed over; in
an array fields may be left off at the end.  A field that is left out takes its default, if it has
one.
-/

namespace PictureSearch.Json

/-- The fields that are present, by name. -/
abbrev Fields := List (String × Json)

/-- The fields of a record with the declared names. -/
def fields? (names : List String) : Json → Option Fields
  | .array elements =>
    if elements.length ≤ names.length then some (names.zip elements) else none
  | .object members => do
    let members ← members.mapM fun m => (unescape m.1).map fun key => (key, m.2)
    let known := members.filter fun m => names.contains m.1
    if (known.map (·.1)).Nodup then some known else none
  | _ => none

namespace Fields

variable {α : Type}

/-- A field that has to be present. -/
def required (fs : Fields) (name : String) (read : Json → Option α) : Option α :=
  (fs.lookup name).bind read

/-- A field with a default. -/
def optional (fs : Fields) (name : String) (default : α) (read : Json → Option α) : Option α :=
  match fs.lookup name with
  | none => some default
  | some v => read v

end Fields

def uint8? (v : Json) : Option UInt8 := (v.natBelow? UInt8.size).map UInt8.ofNat

def uint32? (v : Json) : Option UInt32 := (v.natBelow? UInt32.size).map UInt32.ofNat

def uint64? (v : Json) : Option UInt64 := (v.natBelow? UInt64.size).map UInt64.ofNat

/-- A value that may be null. -/
def nullable? {α : Type} (read : Json → Option α) : Json → Option (Option α)
  | .null => some none
  | v => (read v).map some

/-- The elements of an array, as long as `room` leaves a level of nesting for it; `read` is told
the levels left for an element. -/
def list? {α : Type} (room : Nat) (read : Nat → Json → Option α) : Json → Option (List α)
  | .array elements =>
    match room with
    | 0 => none
    | room + 1 => elements.mapM (read room)
  | _ => none

end PictureSearch.Json

import PictureSearch.Json.Spelling

/-!
# Writing JSON

Two layouts: on one line without blanks, and over lines indented by two spaces for each level,
where an empty array or object stays on its line.
-/

namespace PictureSearch.Json

def quote (spelling : String) : String := "\"" ++ spelling ++ "\""

/-! ## One line -/

mutual

def compact : Json → String
  | .null => "null"
  | .bool true => "true"
  | .bool false => "false"
  | .number spelling => spelling
  | .string spelling => quote spelling
  | .array elements => "[" ++ compactElements elements ++ "]"
  | .object members => "\x7b" ++ compactMembers members ++ "\x7d"

def compactElements : List Json → String
  | [] => ""
  | [v] => v.compact
  | v :: rest => v.compact ++ "," ++ compactElements rest

def compactMembers : List (String × Json) → String
  | [] => ""
  | [(k, v)] => quote k ++ ":" ++ v.compact
  | (k, v) :: rest => quote k ++ ":" ++ v.compact ++ "," ++ compactMembers rest

end

/-! ## Lines -/

/-- The start of a line at a level. -/
def newline (level : Nat) : String := String.ofList ('\n' :: List.replicate (2 * level) ' ')

mutual

/-- The layout over lines of a value that stands at a level. -/
def prettyAt (level : Nat) : Json → String
  | .null => "null"
  | .bool true => "true"
  | .bool false => "false"
  | .number spelling => spelling
  | .string spelling => quote spelling
  | .array [] => "[]"
  | .array elements => "[" ++ prettyElements (level + 1) elements ++ newline level ++ "]"
  | .object [] => "\x7b\x7d"
  | .object members =>
    "\x7b" ++ prettyMembers (level + 1) members ++ newline level ++ "\x7d"

def prettyElements (level : Nat) : List Json → String
  | [] => ""
  | [v] => newline level ++ v.prettyAt level
  | v :: rest => newline level ++ v.prettyAt level ++ "," ++ prettyElements level rest

def prettyMembers (level : Nat) : List (String × Json) → String
  | [] => ""
  | [(k, v)] => newline level ++ quote k ++ ": " ++ v.prettyAt level
  | (k, v) :: rest =>
    newline level ++ quote k ++ ": " ++ v.prettyAt level ++ "," ++ prettyMembers level rest

end

/-- The layout over lines. -/
def pretty (v : Json) : String := v.prettyAt 0

end PictureSearch.Json

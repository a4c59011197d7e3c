import PictureSearch.Text.Pieces
import PictureSearch.Text.Quoted

/-!
# Commands

What a line of a session asks for.  A line that does not start with a slash is a query; behind a
slash stand a word and, after the first blank, what the word applies to.
-/

namespace PictureSearch.Session

/-- Why a line is no command. -/
inductive CommandError
  | pageNumber (text : String)
  | saveUsage
  | nameUsage (word : String)
  | unknown (word : String)
  deriving DecidableEq, Repr

def CommandError.message : CommandError → String
  | .pageNumber text => "invalid page number " ++ Text.quoted text
  | .saveUsage => "usage: /save <name> <query>"
  | .nameUsage word => "usage: /" ++ word ++ " <name>"
  | .unknown word => "unknown command /" ++ word

inductive Command
  | query (text : String)
  | page (page : Nat) (query : String)
  | ast (query : String)
  | save (name query : String)
  | run (name : String)
  | saved
  | forget (name : String)
  | bye
  | invalid (error : CommandError)
  deriving DecidableEq, Repr

/-- The characters before the first blank and the rest; all of them when there is no blank. -/
def cutWord (cs : List Char) : List Char × List Char := (Text.cutAtBlank cs).getD (cs, [])

/-- The command of a word and the trimmed rest of its line. -/
def Command.ofWord (word : String) (rest : List Char) : Command :=
  match word, rest with
  | "bye", [] => .bye
  | "saved", [] => .saved
  | "ast", text => .ast (String.ofList text)
  | "page", rest =>
    let (number, text) := cutWord rest
    match Text.boundedDecimal? UInt64.size number with
    | some n => .page n (String.ofList (Text.trimBlanks text))
    | none => .invalid (.pageNumber (String.ofList number))
  | "save", rest =>
    match Text.cutAtBlank rest with
    | some (name, text) => .save (String.ofList name) (String.ofList (Text.trimBlanks text))
    | none => .invalid .saveUsage
  | "run", [] => .invalid (.nameUsage word)
  | "forget", [] => .invalid (.nameUsage word)
  | "run", name => .run (String.ofList name)
  | "forget", name => .forget (String.ofList name)
  | word, _ => .invalid (.unknown word)

/-- The command of a line. -/
def Command.ofLine (line : String) : Command :=
  match line.toList with
  | '/' :: rest =>
    let (word, rest) := cutWord rest
    .ofWord (String.ofList word) (Text.trimBlanks rest)
  | _ => .query line

end PictureSearch.Session

import PictureSearch.Session.Conversation

/-!
# Command line

Carries the tasks of a session out on the files and streams of the machine.
-/

namespace PictureSearch.Session

/-- Reads a file of the machine. -/
def fetchFile (path : String) : IO Reading := do
  match ← (IO.FS.Handle.mk path .read).toBaseIO with
  | .error (.permissionDenied ..) => return .unreadable
  | .error _ => return .absent
  | .ok handle =>
    match ← handle.readBinToEnd.toBaseIO with
    | .error _ => return .unreadable
    | .ok bytes => return .content bytes.toList

/-- Whether an action succeeds. -/
def succeeds (act : IO Unit) : IO Bool := do
  match ← act.toBaseIO with
  | .ok () => return true
  | .error _ => return false

/-- Replaces a file of the machine. -/
def storeFile (path extension : String) (content : List UInt8) : IO (Option WriteFailure) := do
  let target := Pathname.ofText path
  let way := target.parent
  let aside := (target.beside extension).text
  unless way.pieces.isEmpty do
    unless way.fits && (← succeeds (IO.FS.createDirAll way.text)) do
      return some .creatingDirectory
  unless ← succeeds (IO.FS.writeBinFile aside ⟨content.toArray⟩) do
    return some .writing
  unless ← succeeds (IO.FS.rename aside path) do
    return some .renaming
  return none

/-- Carries a task out on the machine. -/
def Task.perform {α : Type} : Task α → IO α
  | .done result => return result
  | .read path next => do
    let found ← fetchFile path
    (next found).perform
  | .replace path extension content next => do
    let failure ← storeFile path extension content
    (next failure).perform
  | .print text next => do
    let out ← IO.getStdout
    out.putStr text
    out.flush
    next.perform
  | .complain text next => do
    let err ← IO.getStderr
    err.putStr text
    err.flush
    next.perform

/-- Reads a line of the input; none at its end. -/
partial def readLine (input : IO.FS.Stream) (line : Array UInt8) :
    IO (Option (List UInt8)) := do
  match (← input.read 1).toList with
  | [] => return if line.isEmpty then none else some line.toList
  | byte :: _ =>
    if byte == 10 then return some line.toList else readLine input (line.push byte)

/-- Answers the lines of the input as they come. -/
partial def listen (input : IO.FS.Stream) (s : Session) : IO Ending := do
  (Task.printText prompt).perform
  match ← readLine input #[] with
  | none => return .finished
  | some line =>
    match ← (s.hear line).perform with
    | .error ending => return ending
    | .ok s => listen input s

/-- The variables of the environment that stand in for flags. -/
def environment : IO (List (String × String)) :=
  (Flag.all.filterMap Flag.envName?).filterMapM fun name => do
    return (← IO.getEnv name).map fun value => (name, value)

/-- What is said of arguments that are not acceptable. -/
def usage : String :=
  "Usage: --catalog <CATALOG> [--viewer <VIEWER>] [--per-page <PER_PAGE>] [--order <ORDER>] " ++
    "[--descending] [--saved <SAVED>] [--cache <CACHE>] [--query <QUERY>]\n"

end PictureSearch.Session

open PictureSearch.Session

def main (args : List String) : IO UInt32 := do
  match Options.ofArguments? args (← environment) with
  | none => do
    (← IO.getStderr).putStr usage
    return 2
  | some options =>
    match ← (start options).perform with
    | .error ending => ending.close.perform
    | .ok s =>
      let ending ← listen (← IO.getStdin) s
      ending.close.perform

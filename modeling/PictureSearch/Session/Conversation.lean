import PictureSearch.Json.Printer
import PictureSearch.Session.Start

/-!
# Talking to a session

A session prompts for lines and answers each one.  After every change the saved searches go to
their file; a file that cannot be written is reported and the session goes on.
-/

namespace PictureSearch.Session

/-- The words for a part of replacing the file of saved searches. -/
def WriteFailure.message : WriteFailure → String
  | .creatingDirectory => "Failed to create saved searches directory"
  | .writing => "Failed to write saved searches"
  | .renaming => "Failed to rename saved searches"

/-- Writes the saved searches to their file, if they have one. -/
def persist (s : Session) : Task Unit := do
  match s.savedPath with
  | none => return ()
  | some path =>
    match ← Task.replaceFile path "tmp" (Payload.Coder.utf8 s.saved.toText) with
    | none => return ()
    | some failure => Task.complainLine ("Failed to write saved searches: " ++ failure.message)

/-- Prints a page of a result, or why there is none. -/
def report (s : Session) (text : String) (page : Nat) : Task Unit := do
  match ← s.search text page with
  | .ok () => return ()
  | .error e => Task.complainLine ("Failed to search: " ++ e.display)

/-- What is said of a name without a search. -/
def unknownName (name : String) : String := "No saved search named " ++ Text.quoted name

/-- Carries out a command; the session afterwards, or none at its end. -/
def obey (s : Session) : Command → Task (Option Session)
  | .bye => return none
  | .query text => do
    s.report text 0
    return some s
  | .page page text => do
    s.report text page
    return some s
  | .ast text => do
    match Query.parse text with
    | .ok root => Task.printLine root.toJson.pretty
    | .error e => Task.complainLine ("Failed to parse: " ++ e.display)
    return some s
  | .save name text =>
    match s.saved.save s.viewer.number name text with
    | .error e => do
      Task.complainLine ("Failed to save: " ++ e.display)
      return some s
    | .ok (saved, previous) => do
      let s := { s with saved }
      match previous with
      | some previous =>
        Task.printLine ("Replaced " ++ Text.quoted name ++ " (was " ++ previous ++ ")")
      | none => Task.printLine ("Saved " ++ Text.quoted name)
      s.persist
      return some s
  | .run name => do
    match s.saved.get? s.viewer.number name with
    | some text => s.report text 0
    | none => Task.complainLine (unknownName name)
    return some s
  | .saved => do
    (s.saved.list s.viewer.number).forM fun (name, text) => Task.printLine (name ++ ": " ++ text)
    return some s
  | .forget name =>
    -- What is left may differ even when the name is not found: an empty owner goes.
    let (saved, dropped) := s.saved.remove s.viewer.number name
    let s := { s with saved }
    match dropped with
    | some _ => do
      Task.printLine ("Forgot " ++ Text.quoted name)
      s.persist
      return some s
    | none => do
      Task.complainLine (unknownName name)
      return some s
  | .invalid e => do
    Task.complainLine e.message
    return some s

/-- Answers a line: its blanks at both ends do not count, and a blank line is passed over. -/
def answer (s : Session) (line : String) : Task (Option Session) :=
  let line := Text.trim line
  if line.isEmpty then return some s else s.obey (.ofLine line)

/-- The sign that a line is awaited. -/
def prompt : String := "> "

/-- Takes a line as it came in; the session afterwards, or how it ended. -/
def hear (s : Session) (line : List UInt8) : Task (Except Ending Session) := do
  match Payload.Coder.ofUtf8? line with
  | none => return .error (.failed .input)
  | some line =>
    match ← s.answer line with
    | none => return .error .finished
    | some s => return .ok s

/-- Prompts for the lines of the input and answers them, to the end of the input or the session. -/
def converse (s : Session) : List (List UInt8) → Task Ending
  | [] => do
    Task.printText prompt
    return .finished
  | line :: rest => do
    Task.printText prompt
    match ← s.hear line with
    | .error ending => return ending
    | .ok s => converse s rest

/-- The lines of an input; the last one may end with the input. -/
def inputLines (bytes : List UInt8) : List (List UInt8) :=
  let parts := bytes.splitOnP (· == 10)
  if parts.getLast? == some [] then parts.dropLast else parts

/-- Reports how a session ended. -/
def Ending.close : Ending → Task UInt32
  | .finished => return 0
  | .failed e => do
    Task.complainLine ("Error: " ++ e.message)
    return 1

/-- A whole session on a given input, with its exit code. -/
def whole (o : Options) (input : List UInt8) : Task UInt32 := do
  match ← start o with
  | .error ending => ending.close
  | .ok s =>
    let ending ← converse s (inputLines input)
    ending.close

end PictureSearch.Session

import PictureSearch.Session.Files

/-!
# Tasks

A piece of a session's work: a value that says which files are read and replaced and what is
printed, and how the work goes on.  `Task.run` carries a task out on files that are values
themselves; the program carries the same tasks out on those of the machine.
-/

namespace PictureSearch.Session

inductive Task (α : Type) : Type
  | done (result : α)
  | read (path : String) (next : Reading → Task α)
  | replace (path extension : String) (content : List UInt8)
      (next : Option WriteFailure → Task α)
  | print (text : String) (next : Task α)
  | complain (text : String) (next : Task α)

namespace Task

variable {α β : Type}

/-- Goes on with the result of a task. -/
def bind (t : Task α) (f : α → Task β) : Task β :=
  match t with
  | .done result => f result
  | .read path next => .read path fun found => (next found).bind f
  | .replace path extension content next =>
    .replace path extension content fun failure => (next failure).bind f
  | .print text next => .print text (next.bind f)
  | .complain text next => .complain text (next.bind f)

instance : Monad Task where
  pure := .done
  bind := bind

/-- Reads a file. -/
def readFile (path : String) : Task Reading := .read path .done

/-- Replaces a file. -/
def replaceFile (path extension : String) (content : List UInt8) : Task (Option WriteFailure) :=
  .replace path extension content .done

/-- Prints a text as it is. -/
def printText (text : String) : Task Unit := .print text (.done ())

/-- Prints a line. -/
def printLine (line : String) : Task Unit := printText (line ++ "\n")

/-- Prints a line where errors go. -/
def complainLine (line : String) : Task Unit := .complain (line ++ "\n") (.done ())

end Task

/-- Files, and what has been printed to both outputs. -/
structure World where
  files : Files
  out : String
  err : String

/-- Carries a task out. -/
def Task.run {α : Type} : Task α → World → α × World
  | .done result, w => (result, w)
  | .read path next, w => (next (w.files.read path)).run w
  | .replace path extension content next, w =>
    let (files, failure) := w.files.replace path extension content
    (next failure).run { w with files }
  | .print text next, w => next.run { w with out := w.out ++ text }
  | .complain text next, w => next.run { w with err := w.err ++ text }

end PictureSearch.Session

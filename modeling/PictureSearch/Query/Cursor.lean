import PictureSearch.Query.Lexer

/-!
# Lexemes on demand

A cursor cuts a text lexeme by lexeme, each one when it is asked for, so that nothing behind an
error has to be read.  Between two calls it keeps the characters that are still to be fed; one that
was handed back waits in front of the others and is fed once more.  Behind an error, and behind the
end of the text, the cursor is exhausted.
-/

namespace PictureSearch.Query

/-! ## States -/

/-- The characters with the bytes where they stand, from byte `offset` on. -/
def placed (offset : Nat) : List Char → List (Nat × Char)
  | [] => []
  | c :: cs => (offset, c) :: placed (offset + c.utf8Size) cs

structure Cursor where
  /-- The characters that were never fed, with the bytes where they stand. -/
  rest : List (Nat × Char)
  state : State
  /-- The character that was handed back, until it is fed again. -/
  retry : Option (Nat × Char)
  exhausted : Bool
  deriving DecidableEq, Repr

/-- What a call hands out, if anything, the cursor that it leaves, and how many characters it fed to
the states. -/
structure Pull where
  item : Option (Except SyntaxError Lexeme)
  cursor : Cursor
  fed : Nat

/-! ## Algorithm -/

/-- What is handed out of the token still being built when the text ends. -/
def State.flush (s : State) : Option (Except SyntaxError Lexeme) :=
  match s.finish with
  | .ok lexeme => lexeme.map .ok
  | .error e => some (.error e)

namespace Cursor

/-- Before the first character of a text. -/
def ofText (text : String) : Cursor := ⟨placed 0 text.toList, .start, none, false⟩

/-- Feeds characters, from the state `s` on, until there is something to hand out. -/
def pull (s : State) : List (Nat × Char) → Pull
  | [] => ⟨s.flush, ⟨[], .start, none, true⟩, 0⟩
  | (offset, c) :: rest =>
    match s.step c offset with
    | .ok (.taken ⟨none, next⟩) =>
      let p := pull next rest
      { p with fed := p.fed + 1 }
    | .ok (.taken ⟨some lexeme, next⟩) => ⟨some (.ok lexeme), ⟨rest, next, none, false⟩, 1⟩
    | .ok (.handedBack lexeme) =>
      ⟨some (.ok lexeme), ⟨rest, .start, some (offset, c), false⟩, 1⟩
    | .error e => ⟨some (.error e), ⟨rest, .start, none, true⟩, 1⟩

/-- Asks for the next lexeme. -/
def next (x : Cursor) : Pull :=
  if x.exhausted then ⟨none, x, 0⟩ else pull x.state (x.retry.toList ++ x.rest)

end Cursor

end PictureSearch.Query

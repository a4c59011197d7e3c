import PictureSearch.Catalog.Attribute
import PictureSearch.Text.Pieces

/-!
# Pathnames

A pathname is kept as it is written, because its length counts as well as the names in it.  From it
come the pathname of the directory that a file is in (`Pathname.parent`) and that of another file
beside it (`Pathname.beside`).
-/

namespace PictureSearch.Session

/-- A pathname by the pieces between its slashes.  The first piece is empty if the way starts at
the root, and the last one if it has to end in a directory. -/
structure Pathname where
  pieces : List String
  deriving DecidableEq, Repr

namespace Pathname

/-- The longest name, in bytes. -/
def nameLimit : Nat := 255

/-- The longest pathname, in bytes. -/
def lengthLimit : Nat := 4095

def ofText (text : String) : Pathname := ⟨Text.segments text⟩

def text (p : Pathname) : String := "/".intercalate p.pieces

theorem text_ofText (text : String) : (ofText text).text = text := Text.intercalate_segments text

/-- Whether a pathname is short enough to be followed. -/
def fits (p : Pathname) : Bool := p.text.utf8ByteSize ≤ lengthLimit

/-- Whether a piece leads no further: it is empty or a single point. -/
def staysPut (piece : String) : Bool := piece == "" || piece == "."

/-- Pieces without those at the end that lead no further. -/
def trimEnd (pieces : List String) : List String := (pieces.reverse.dropWhile staysPut).reverse

/-- The directory that a file is in, without pieces if that is the root or where the way starts. -/
def parent (p : Pathname) : Pathname := ⟨trimEnd (trimEnd p.pieces).dropLast⟩

/-- A file name with another extension. -/
def withExtension (extension name : String) : String :=
  match cutAtLastPoint name.toList with
  | some (c :: stem, _) => String.ofList (c :: stem) ++ "." ++ extension
  | _ => name ++ "." ++ extension

/-- Whether two points are left of a file name when its extension is taken off.  They are no name:
they lead upwards. -/
def leavesPoints (name : String) : Bool :=
  match name.toList with
  | '.' :: '.' :: extension => !extension.contains '.'
  | _ => false

/-- The file that is written beside a file, to take its place.  The old extension is taken off
first, then the other one goes behind what is left, if that is a name; a slash behind the old
extension keeps it from being taken off alone. -/
def beside (extension : String) (p : Pathname) : Pathname :=
  let kept := trimEnd p.pieces
  match kept.getLast? with
  | none => p
  | some ".." => p
  | some name =>
    if leavesPoints name ∧ p.pieces.getLast? = some name then ⟨kept.dropLast ++ [".."]⟩
    else ⟨kept.dropLast ++ [withExtension extension name]⟩

end Pathname

end PictureSearch.Session

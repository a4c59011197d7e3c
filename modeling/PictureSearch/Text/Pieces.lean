import PictureSearch.Text.Classes

/-!
# Pieces of texts

What is taken out of a text: all of it but the blanks at its ends, what stands before its first
blank, the pieces between its slashes, and the number that its digits write.  Between the slashes
nothing is lost: joined by slashes again the pieces give the text back (`intercalate_segments`).
-/

namespace PictureSearch.Text

/-! ## Blanks -/

/-- Characters without the blanks at both ends. -/
def trimBlanks (cs : List Char) : List Char :=
  ((cs.dropWhile isBlank).reverse.dropWhile isBlank).reverse

/-- The text without the blanks at both ends. -/
def trim (s : String) : String := String.ofList (trimBlanks s.toList)

/-- The characters before the first blank and those after it, if there is a blank. -/
def cutAtBlank : List Char → Option (List Char × List Char)
  | [] => none
  | c :: cs => if isBlank c then some ([], cs) else (cutAtBlank cs).map fun r => (c :: r.1, r.2)

/-! ## Slashes -/

/-- The pieces between the slashes of a path. -/
def segments (path : String) : List String := (path.toList.splitOn '/').map String.ofList

theorem segments_ne_nil (path : String) : segments path ≠ [] := by
  simp [segments, List.splitOn, List.splitOnP_ne_nil]

theorem intercalate_segments (path : String) : "/".intercalate (segments path) = path := by
  apply String.toList_inj.1
  have h : "/".toList = ['/'] := rfl
  rw [String.toList_intercalate, h, segments, List.map_map]
  simp [Function.comp_def, List.intercalate_splitOn]

/-! ## Digits -/

/-- The number written by a non-empty run of ASCII digits. -/
def decimal? (cs : List Char) : Option Nat :=
  if !cs.isEmpty && cs.all Char.isDigit then some (Nat.ofDigitChars 10 cs 0) else none

/-- A number below `bound`, written in digits that a plus sign may precede. -/
def boundedDecimal? (bound : Nat) (cs : List Char) : Option Nat :=
  (decimal? (match cs with | '+' :: digits => digits | _ => cs)).filter (· < bound)

end PictureSearch.Text

import PictureSearch.Text.Folding

/-!
# Patterns

A pattern has to match a whole text, up to case.  A per cent sign stands for any run of characters
of one line; every other character stands for itself.
-/

namespace PictureSearch.Pattern

/-- Where a pattern may go on in a text: for each end of the text, from the whole text down to
the empty one, whether the rest of the pattern matches it. -/
abbrev Row := List Bool

/-- The ends of a text that the empty pattern matches: the empty one alone. -/
def lastRow : List Char → Row
  | [] => [true]
  | _ :: text => false :: lastRow text

/-- The row of a pattern that starts with the character `p`, from the row of its rest. -/
def charRow (p : Char) : List Char → Row → Row
  | t :: text, _ :: row => (Text.sameFolded p t && row.headD false) :: charRow p text row
  | _, _ => [false]

/-- The row of a pattern that starts with a per cent sign, from the row of its rest. -/
def runRow : List Char → Row → Row
  | t :: text, here :: row =>
    let after := runRow text row
    (here || (t != '\n' && after.headD false)) :: after
  | _, row => row

/-- The row of a pattern. -/
def row (text : List Char) : List Char → Row
  | [] => lastRow text
  | p :: pattern =>
    if p = '%' then runRow text (row text pattern) else charRow p text (row text pattern)

/-- Whether a pattern matches a whole text. -/
def matchesText (pattern text : String) : Bool := (row text.toList pattern.toList).headD false

/-- The most per cent signs of a pattern. -/
def maxRuns : Nat := 10000

/-- Whether a pattern has too many per cent signs to be used. -/
def isTooLarge (pattern : String) : Bool := maxRuns < pattern.toList.count '%'

end PictureSearch.Pattern

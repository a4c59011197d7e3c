/-!
# Attributes

The fields of a picture that a query can name, and how their values compare.
-/

namespace PictureSearch

/-- How the values of an attribute compare. -/
inductive AttributeKind
  | text
  | integer
  /-- Several values; a query can only ask for membership. -/
  | set
  deriving DecidableEq, Repr

def AttributeKind.name : AttributeKind → String
  | .text => "text"
  | .integer => "integer"
  | .set => "set"

inductive Attribute
  | name | comment | filetype | width | height | aspect | rating | nsfw | size | tags
  deriving DecidableEq, Repr

namespace Attribute

/-- All attributes, in the order they are declared. -/
def all : List Attribute :=
  [.name, .comment, .filetype, .width, .height, .aspect, .rating, .nsfw, .size, .tags]

/-- The name that queries use. -/
def text : Attribute → String
  | .name => "name"
  | .comment => "comment"
  | .filetype => "filetype"
  | .width => "width"
  | .height => "height"
  | .aspect => "aspect"
  | .rating => "rating"
  | .nsfw => "nsfw"
  | .size => "size"
  | .tags => "tags"

/-- The attribute of a name; capitals count. -/
def ofText? (s : String) : Option Attribute := all.find? fun a => a.text == s

/-- The names of attributes in the order of their code points. -/
def names (exposed : List Attribute) : List String :=
  (exposed.map text).mergeSort fun a b => (compare a b).isLE

def kind : Attribute → AttributeKind
  | .name | .comment | .filetype => .text
  | .width | .height | .aspect | .rating | .nsfw | .size => .integer
  | .tags => .set

end Attribute

/-- The class of the ratio of a picture's sides: 10 for 16:10, 9 for 16:9, 4 for 4:3, 1 for a
square and 0 for any other and for a picture without extent. -/
def aspectClass (width height : UInt32) : Nat :=
  let w := width.toNat
  let h := height.toNat
  if w = 0 ∨ h = 0 then 0
  else if 16 * h = 10 * w then 10
  else if 16 * h = 9 * w then 9
  else if 4 * h = 3 * w then 4
  else if h = w then 1
  else 0

/-- The characters before the last `.` and those behind it. -/
def cutAtLastPoint (cs : List Char) : Option (List Char × List Char) :=
  let behind := (cs.reverse.takeWhile (· != '.')).reverse
  if behind.length = cs.length then none
  else some (cs.take (cs.length - behind.length - 1), behind)

/-- The extension of a file name in small ASCII letters; empty if the name has none or nothing
stands before it. -/
def filetype (name : String) : String :=
  match cutAtLastPoint name.toList with
  | some (_ :: _, extension) => String.ofList (extension.map Char.toLower)
  | _ => ""

end PictureSearch

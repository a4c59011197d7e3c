import PictureSearch.Catalog.Basic
import PictureSearch.Search.Pattern
import PictureSearch.Search.Predicate

/-!
# Evaluating predicates

A predicate narrows a list of pictures and keeps its order: a conjunction narrows it part by part,
a disjunction keeps what one of its parts keeps, a negation what its part drops.
-/

namespace PictureSearch

open Query

/-! ## Values -/

/-- The value of an integer attribute.  Sizes past the greatest signed word count as that. -/
def Catalog.integerValue? (c : Catalog) (item : Item) : Attribute → Option Int
  | .width => some item.width.toNat
  | .height => some item.height.toNat
  | .aspect => some (aspectClass item.width item.height)
  | .rating => some item.rating.toNat
  | .nsfw => some (if c.isNsfw item then 1 else 0)
  | .size => some (min (item.size.toNat : Int) Int64.maxValue.toInt)
  | .name | .comment | .filetype | .tags => none

/-- The value of a text attribute; a picture may be without a comment. -/
def Item.textValue? (item : Item) : Attribute → Option String
  | .name => some item.name
  | .comment => item.comment
  | .filetype => some (filetype item.name)
  | _ => none

/-- Whether an operator allows the order of a value and the one it is compared with. -/
def Query.Op.allows : Op → Ordering → Bool
  | .eq, o => o == .eq
  | .neq, o => o != .eq
  | .gt, o => o == .gt
  | .lt, o => o == .lt
  | .gte, o => o != .lt
  | .lte, o => o != .gt
  | .like, _ | .has, _ => false

namespace Catalog

variable (c : Catalog)

/-- Whether a picture passes a test.  A comparison with a value that is absent fails. -/
def passes (item : Item) : Test → Bool
  | .visible viewer => c.visibleTo item viewer
  | .compare attr op (.integer n) =>
    (c.integerValue? item attr).any fun value => op.allows (compare value n.toInt)
  | .compare attr op (.text s) => (item.textValue? attr).any fun value => op.allows (compare value s)
  | .like attr pattern => (item.textValue? attr).any fun value => Pattern.matchesText pattern value
  | .contains _ value => (c.tagNames item).contains value

/-! ## Algorithm -/

mutual

/-- The pictures of `base` that satisfy a predicate, in the order of `base`. -/
def select : Predicate → (base : List ItemId) → List ItemId
  | .all, base => base
  | .test t, base => base.filter fun id => (c.item? id).any fun item => c.passes item t
  | .and parts, base => selectAll parts base
  | .or parts, base =>
    let found := selectAny parts base
    base.filter fun id => found.contains id
  | .not inner, base =>
    let found := select inner base
    base.filter fun id => !found.contains id

/-- What all parts keep, each narrowing what the one before it has left. -/
def selectAll : List Predicate → (base : List ItemId) → List ItemId
  | [], base => base
  | p :: rest, base => selectAll rest (select p base)

/-- What some part keeps. -/
def selectAny : List Predicate → (base : List ItemId) → List ItemId
  | [], _ => []
  | p :: rest, base => select p base ++ selectAny rest base

end

/-- The pictures that satisfy a predicate, in the order of their numbers. -/
def matching (p : Predicate) : List ItemId := c.select p c.itemIds

end Catalog

end PictureSearch

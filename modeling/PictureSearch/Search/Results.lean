import PictureSearch.Catalog.Path
import PictureSearch.Search.Evaluate

/-!
# Results

The pictures that a query finds, in a chosen order and cut to a page.  Pictures that the order key
does not tell apart go by number, and a descending result is the ascending one backwards.
-/

namespace PictureSearch

/-! ## Order -/

inductive OrderKey
  | name | rating | width | height | size | id
  deriving DecidableEq, Repr

def OrderKey.ofText? : String → Option OrderKey
  | "name" => some .name
  | "rating" => some .rating
  | "width" => some .width
  | "height" => some .height
  | "size" => some .size
  | "id" => some .id
  | _ => none

inductive Direction
  | ascending | descending
  deriving DecidableEq, Repr

/-- The order of two pictures by a key alone. -/
def OrderKey.compareItems (key : OrderKey) (a b : Item) : Ordering :=
  match key with
  | .name => compare a.name b.name
  | .rating => compare a.rating b.rating
  | .width => compare a.width b.width
  | .height => compare a.height b.height
  | .size => compare a.size b.size
  | .id => .eq

/-! ## Pages -/

/-- A query that is ready to run. -/
structure ItemQuery where
  predicate : Predicate
  key : OrderKey := .name
  direction : Direction := .ascending
  offset : Nat := 0
  limit : Option Nat := none

/-- The page of a number, counted from 0, when a page holds `perPage` pictures.  A start that is
too great for a word is taken for the greatest word, past every result. -/
def ItemQuery.page (q : ItemQuery) (page perPage : Nat) : ItemQuery :=
  { q with offset := min (page * perPage) (UInt64.size - 1), limit := some perPage }

/-- One row of a result. -/
structure ItemView where
  id : ItemId
  name : String
  path : String
  width : UInt32
  height : UInt32
  rating : UInt8
  nsfw : Bool
  filetype : String
  tags : List String
  deriving DecidableEq, Repr

def ItemView.display (v : ItemView) : String :=
  v.path ++ " (" ++ toString v.width.toNat ++ "x" ++ toString v.height.toNat ++ ", rating " ++
    toString v.rating.toNat ++ ")"

/-! ## Algorithm -/

namespace Catalog

variable (c : Catalog)

/-- The order of two pictures in a result. -/
def compareIds (key : OrderKey) (direction : Direction) (a b : ItemId) : Ordering :=
  let byKey :=
    match c.item? a, c.item? b with
    | some x, some y => key.compareItems x y
    | _, _ => .eq
  let order := byKey.then (compare a.index b.index)
  match direction with
  | .ascending => order
  | .descending => order.swap

/-- The number of pictures found, whatever the page. -/
def count (q : ItemQuery) : Nat := (c.matching q.predicate).length

/-- All pictures found, in the order of the result. -/
def sorted (q : ItemQuery) : List ItemId :=
  (c.matching q.predicate).mergeSort fun a b => (c.compareIds q.key q.direction a b).isLE

/-- The pictures of the page. -/
def ids (q : ItemQuery) : List ItemId :=
  let rest := (c.sorted q).drop q.offset
  match q.limit with
  | none => rest
  | some limit => rest.take limit

/-- The row of a picture that has a path. -/
def view? (id : ItemId) : Option ItemView := do
  let item ← c.item? id
  let path ← c.itemPath? id
  return { id, name := item.name, path, width := item.width, height := item.height,
           rating := item.rating, nsfw := c.isNsfw item, filetype := filetype item.name,
           tags := c.tagNames item }

/-- The rows of the page. -/
def views (q : ItemQuery) : List ItemView := (c.ids q).filterMap c.view?

end Catalog

end PictureSearch

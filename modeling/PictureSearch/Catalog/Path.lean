import PictureSearch.Catalog.Basic
import PictureSearch.Text.Pieces

/-!
# Paths

A tag is named by the path of names from its root tag down, a picture by the machine name of its
library, the names of its folders and its own.  Both come from following parent links upwards.

A catalog that was built record by record has no cycles; one that was read from a payload may
have.  A walk that has passed more records than there are comes back to one it has passed, and so
never ends.
-/

namespace PictureSearch

/-- How following parent links ends. -/
inductive Ascent (ρ : Type)
  /-- At a record without parent; the records passed, from that one down to the first. -/
  | rooted (chain : List ρ)
  /-- At a link to no record. -/
  | missing
  /-- It does not end. -/
  | endless
  deriving DecidableEq, Repr

namespace Ascent

variable {ι ρ : Type}

/-- The chain of an ascent that ends at a root. -/
def chain? : Ascent ρ → Option (List ρ)
  | .rooted chain => some chain
  | _ => none

/-- Follows the links from the record `id` on, below the records passed so far; `limit` more
records may be passed. -/
def climb (record : ι → Option ρ) (parent : ρ → Option ι) :
    (limit : Nat) → (passed : List ρ) → (id : ι) → Ascent ρ
  | 0, _, id => if (record id).isNone then .missing else .endless
  | limit + 1, passed, id =>
    match record id with
    | none => .missing
    | some r =>
      match parent r with
      | none => .rooted (r :: passed)
      | some above => climb record parent limit (r :: passed) above

end Ascent

namespace Catalog

variable (c : Catalog)

/-- The tags from the root tag down to a tag. -/
def tagLine (id : TagId) : Ascent Tag := .climb c.tag? (·.parent) c.tags.size [] id

/-- The folders from the top down to a folder. -/
def folderLine (id : FolderId) : Ascent Folder :=
  .climb c.folder? (·.parent) c.folders.size [] id

def tagPath? (id : TagId) : Option String :=
  (c.tagLine id).chain?.map fun tags => "/".intercalate (tags.map (·.name))

/-- The path of a picture, with the library of its topmost folder. -/
def itemPath? (id : ItemId) : Option String := do
  let item ← c.item? id
  let folders ← (c.folderLine item.folder).chain?
  let top ← folders.head?
  let library ← c.library? top.library
  return "/".intercalate (library.machineName :: folders.map (·.name) ++ [item.name])

/-- The tag that names lead to, each one directly under the tag before it. -/
def descend? (at? : Option TagId) : List String → Option TagId
  | [] => at?
  | name :: rest =>
    match c.childTag? at? name with
    | none => none
    | some id => descend? (some id) rest

/-- The tag that a path leads to from the root. -/
def tagAt? (path : String) : Option TagId := c.descend? none (Text.segments path)

end Catalog

end PictureSearch

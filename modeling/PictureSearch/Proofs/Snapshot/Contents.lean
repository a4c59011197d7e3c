import PictureSearch.Catalog.Building
import PictureSearch.Snapshot.Basic

/-!
# What a snapshot describes

The trees of a snapshot laid out flat: the paths of its tags, and its pictures with the library and
the folders that they lie in.  A snapshot can be loaded where its tags have usable names and
siblings different ones, its libraries have different machine names, and its pictures name tags
that it has.
-/

namespace PictureSearch

namespace Snapshot

/-! ## Tags -/

mutual

/-- The names on the way down to each tag of a tree, behind the names above the tree. -/
def Tag.lines (above : List String) : Tag → List (List String)
  | .mk name children => (above ++ [name]) :: Tag.linesAll (above ++ [name]) children

def Tag.linesAll (above : List String) : List Tag → List (List String)
  | [] => []
  | t :: rest => t.lines above ++ Tag.linesAll above rest

end

mutual

/-- The names in a tree of tags are usable, and siblings have different ones. -/
def Tag.Proper : Tag → Prop
  | .mk name children => (name ≠ "" ∧ '/' ∉ name.toList) ∧ Tag.ProperAll children

def Tag.ProperAll : List Tag → Prop
  | [] => True
  | t :: rest => t.Proper ∧ t.name ∉ rest.map (·.name) ∧ Tag.ProperAll rest

end

/-! ## Pictures -/

mutual

/-- The pictures in a folder and the folders below it, each with the names of the folders from the
top down to it, which start with `above`. -/
def Folder.pictures (above : List String) : Folder → List (List String × Item)
  | .mk name folders items =>
    items.map (fun item => (above ++ [name], item)) ++ Folder.picturesAll (above ++ [name]) folders

def Folder.picturesAll (above : List String) : List Folder → List (List String × Item)
  | [] => []
  | f :: rest => f.pictures above ++ Folder.picturesAll above rest

end

/-- A picture where it lies: the number of its library, the names of its folders from the top, and
the picture with the paths of its tags. -/
structure Depiction where
  library : LibraryId
  folders : List String
  item : Item
  deriving DecidableEq, Repr

/-- The depiction with each path once, at its first place. -/
def Depiction.merged (p : Depiction) : Depiction :=
  { p with item := { p.item with tags := keepFirst p.item.tags } }

/-- The record of a library, without folders. -/
def Library.outline (l : Library) : PictureSearch.Library :=
  ⟨l.displayName, l.machineName, l.absolutePath, l.nsfw, l.owner.map ViewerId.mk, []⟩

/-- The pictures of libraries that are numbered from `n` on. -/
def depictionsFrom (n : Nat) : List Library → List Depiction
  | [] => []
  | l :: rest =>
    (Folder.picturesAll [] l.folders).map (fun p => ⟨⟨n⟩, p.1, p.2⟩) ++ depictionsFrom (n + 1) rest

/-! ## Whole snapshots -/

variable (s : Snapshot)

/-- The paths of all tags. -/
def tagPaths : List String := (Tag.linesAll [] s.tags).map fun names => "/".intercalate names

/-- All pictures, where they lie. -/
def depictions : List Depiction := depictionsFrom 0 s.libraries

/-- What a snapshot that can be loaded has to be like. -/
structure Loadable : Prop where
  tags : Tag.ProperAll s.tags
  machineNames : (s.libraries.map (·.machineName)).Nodup
  tagged : ∀ p ∈ s.depictions, ∀ path ∈ p.item.tags, path ∈ s.tagPaths

end Snapshot

end PictureSearch

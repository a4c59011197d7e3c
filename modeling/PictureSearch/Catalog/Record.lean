/-!
# Records of a catalog

A catalog holds libraries, folders, pictures and tags.  Records refer to each other by number, and
each kind of record has numbers of its own.
-/

namespace PictureSearch

/-! ## Numbers -/

/-- On whose behalf a query runs. -/
structure ViewerId where
  number : UInt64
  deriving DecidableEq, Repr

structure LibraryId where
  index : Nat
  deriving DecidableEq, Repr

structure FolderId where
  index : Nat
  deriving DecidableEq, Repr

structure ItemId where
  index : Nat
  deriving DecidableEq, Repr

structure TagId where
  index : Nat
  deriving DecidableEq, Repr

def ViewerId.display (v : ViewerId) : String := "viewer#" ++ toString v.number.toNat

def LibraryId.display (i : LibraryId) : String := "LibraryId(" ++ toString i.index ++ ")"

def FolderId.display (i : FolderId) : String := "FolderId(" ++ toString i.index ++ ")"

def TagId.display (i : TagId) : String := "TagId(" ++ toString i.index ++ ")"

/-! ## Records -/

structure Library where
  displayName : String
  machineName : String
  absolutePath : String
  nsfw : Bool
  /-- A library without owner is visible to every viewer. -/
  owner : Option ViewerId
  /-- The folders at the top, in the order they were added. -/
  folders : List FolderId
  deriving DecidableEq, Repr

structure Folder where
  name : String
  library : LibraryId
  parent : Option FolderId
  children : List FolderId
  items : List ItemId
  deriving DecidableEq, Repr

structure Tag where
  name : String
  parent : Option TagId
  children : List TagId
  deriving DecidableEq, Repr

structure Item where
  name : String
  folder : FolderId
  width : UInt32
  height : UInt32
  rating : UInt8
  /-- The flag of the picture itself; that of its library counts as well. -/
  nsfw : Bool
  comment : Option String
  size : UInt64
  tags : List TagId
  deriving DecidableEq, Repr

/-- Whether the library may be seen by a viewer. -/
def Library.visibleTo (l : Library) (viewer : ViewerId) : Bool :=
  match l.owner with
  | none => true
  | some owner => owner == viewer

end PictureSearch

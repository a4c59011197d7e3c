/-!
# Snapshots

A snapshot describes a whole catalog as nested records: tags below tags, folders below libraries
and folders, pictures in folders.  Pictures name their tags by path.
-/

namespace PictureSearch

namespace Snapshot

inductive Tag where
  | mk (name : String) (children : List Tag)
  deriving Repr, Inhabited

def Tag.name : Tag → String
  | .mk name _ => name

def Tag.children : Tag → List Tag
  | .mk _ children => children

structure Item where
  name : String
  width : UInt32
  height : UInt32
  rating : UInt8 := 0
  nsfw : Bool := false
  comment : Option String := none
  size : UInt64 := 0
  /-- Paths of tags from the root. -/
  tags : List String := []
  deriving DecidableEq, Repr, Inhabited

inductive Folder where
  | mk (name : String) (folders : List Folder) (items : List Item)
  deriving Repr, Inhabited

def Folder.name : Folder → String
  | .mk name _ _ => name

def Folder.folders : Folder → List Folder
  | .mk _ folders _ => folders

def Folder.items : Folder → List Item
  | .mk _ _ items => items

/-! ## Sizes -/

mutual

/-- The number of tags of a tree of tags. -/
def Tag.count : Tag → Nat
  | .mk _ children => Tag.countAll children + 1

def Tag.countAll : List Tag → Nat
  | [] => 0
  | t :: rest => t.count + Tag.countAll rest

end

mutual

/-- The number of folders of a tree of folders. -/
def Folder.count : Folder → Nat
  | .mk _ folders _ => Folder.countAll folders + 1

def Folder.countAll : List Folder → Nat
  | [] => 0
  | f :: rest => f.count + Folder.countAll rest

end

theorem Tag.countAll_append (l l' : List Tag) :
    Tag.countAll (l ++ l') = Tag.countAll l + Tag.countAll l' := by
  induction l with
  | nil => simp [Tag.countAll]
  | cons t l ih => simp only [List.cons_append, Tag.countAll, ih]; omega

theorem Tag.countAll_reverse (l : List Tag) : Tag.countAll l.reverse = Tag.countAll l := by
  induction l with
  | nil => rfl
  | cons t l ih =>
    simp only [List.reverse_cons, Tag.countAll_append, Tag.countAll, ih]
    omega

/-! ## Snapshots -/

structure Library where
  displayName : String
  machineName : String
  absolutePath : String := ""
  nsfw : Bool := false
  owner : Option UInt64 := none
  folders : List Folder := []
  deriving Repr, Inhabited

end Snapshot

structure Snapshot where
  tags : List Snapshot.Tag := []
  libraries : List Snapshot.Library := []
  deriving Repr, Inhabited

end PictureSearch

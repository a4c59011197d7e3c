import PictureSearch.Catalog.Record
import PictureSearch.SortedMap

/-!
# Catalogs

The records of a catalog under their numbers, with an index from tag names to tags.  The index is
kept beside the records while a catalog grows and is built anew when a catalog is read back.
-/

namespace PictureSearch

/-! ## The tag index -/

/-- The tags of each name, in the order they were added. -/
structure TagIndex where
  entries : SortedMap String (List TagId)

namespace TagIndex

def empty : TagIndex := ⟨.empty⟩

/-- The tags with a name, whatever their parents. -/
def named (x : TagIndex) (name : String) : List TagId := (x.entries.find? name).getD []

/-- Adds a tag behind the others of its name. -/
def add (x : TagIndex) (name : String) (id : TagId) : TagIndex :=
  ⟨x.entries.insert name (x.named name ++ [id])⟩

/-- The index of the given tags, in the order of their numbers. -/
def ofTags (tags : SortedMap Nat Tag) : TagIndex :=
  tags.entries.foldl (fun x e => x.add e.2.name ⟨e.1⟩) empty

end TagIndex

/-! ## Catalogs -/

structure Catalog where
  libraries : SortedMap Nat Library
  folders : SortedMap Nat Folder
  items : SortedMap Nat Item
  tags : SortedMap Nat Tag
  tagIndex : TagIndex

namespace Catalog

def empty : Catalog := ⟨.empty, .empty, .empty, .empty, .empty⟩

instance : Inhabited Catalog := ⟨empty⟩

variable (c : Catalog)

def library? (id : LibraryId) : Option Library := c.libraries.find? id.index

def folder? (id : FolderId) : Option Folder := c.folders.find? id.index

def item? (id : ItemId) : Option Item := c.items.find? id.index

def tag? (id : TagId) : Option Tag := c.tags.find? id.index

/-- The numbers of all pictures in increasing order. -/
def itemIds : List ItemId := c.items.keys.map ItemId.mk

/-- The first library with a machine name. -/
def libraryNamed? (machineName : String) : Option LibraryId :=
  (c.libraries.entries.find? fun e => e.2.machineName == machineName).map fun e => ⟨e.1⟩

/-- The tags with a name, whatever their parents. -/
def tagsNamed (name : String) : List TagId := c.tagIndex.named name

/-- The tag with a name directly under a parent, or at the root. -/
def childTag? (parent : Option TagId) (name : String) : Option TagId :=
  (c.tagsNamed name).find? fun id => (c.tag? id).any fun t => t.parent == parent

/-- The library that a picture's folder lies in. -/
def libraryOf? (item : Item) : Option Library :=
  (c.folder? item.folder).bind fun f => c.library? f.library

/-- Whether a picture lies in a library that the viewer may see. -/
def visibleTo (item : Item) (viewer : ViewerId) : Bool :=
  (c.libraryOf? item).any fun l => l.visibleTo viewer

/-- Whether a picture or its library is flagged. -/
def isNsfw (item : Item) : Bool := item.nsfw || (c.libraryOf? item).any (·.nsfw)

/-- The names of a picture's tags; numbers without a tag are passed over. -/
def tagNames (item : Item) : List String := item.tags.filterMap fun id => (c.tag? id).map (·.name)

/-- Builds the tag index anew. -/
def reindex : Catalog := { c with tagIndex := .ofTags c.tags }

/-- How many records of each kind there are, as one line. -/
def summary : String :=
  "MemoryCatalog \x7b libraries.len(): " ++ toString c.libraries.size ++
    ", folders.len(): " ++ toString c.folders.size ++
    ", items.len(): " ++ toString c.items.size ++
    ", tags.len(): " ++ toString c.tags.size ++ " \x7d"

end Catalog

end PictureSearch

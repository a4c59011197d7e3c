import PictureSearch.Catalog.Basic
import PictureSearch.Payload.Coder

/-!
# The payload of a catalog

A catalog is written as a version and its four kinds of records.  Each kind is a map: the number
of its entries, then numbers and records in increasing order of numbers.  When a map is read its
entries may come in any order and of two entries with one number the later one counts.  The tag
index is not written; it is built anew.  Bytes behind the payload are ignored.
-/

namespace PictureSearch.Payload

open Coder

/-! ## Records -/

def libraryId : Coder LibraryId := word64.map LibraryId.mk LibraryId.index

def folderId : Coder FolderId := word64.map FolderId.mk FolderId.index

def itemId : Coder ItemId := word64.map ItemId.mk ItemId.index

def tagId : Coder TagId := word64.map TagId.mk TagId.index

def viewerId : Coder ViewerId :=
  word64.map (fun n => ⟨UInt64.ofNat n⟩) fun v => v.number.toNat

def library : Coder Library :=
  (string.pair (string.pair (string.pair (bool.pair (viewerId.option.pair folderId.list))))).map
    (fun (displayName, machineName, absolutePath, nsfw, owner, folders) =>
      { displayName, machineName, absolutePath, nsfw, owner, folders })
    (fun l => (l.displayName, l.machineName, l.absolutePath, l.nsfw, l.owner, l.folders))

def folder : Coder Folder :=
  (string.pair (libraryId.pair (folderId.option.pair (folderId.list.pair itemId.list)))).map
    (fun (name, library, parent, children, items) => { name, library, parent, children, items })
    (fun f => (f.name, f.library, f.parent, f.children, f.items))

def uint32 : Coder UInt32 := word32.map UInt32.ofNat UInt32.toNat

def uint64 : Coder UInt64 := word64.map UInt64.ofNat UInt64.toNat

def item : Coder Item :=
  (string.pair (folderId.pair (uint32.pair (uint32.pair (byte.pair (bool.pair
    (string.option.pair (uint64.pair tagId.list)))))))).map
    (fun (name, folder, width, height, rating, nsfw, comment, size, tags) =>
      { name, folder, width, height, rating, nsfw, comment, size, tags })
    (fun i => (i.name, i.folder, i.width, i.height, i.rating, i.nsfw, i.comment, i.size, i.tags))

def tag : Coder Tag :=
  (string.pair (tagId.option.pair tagId.list)).map
    (fun (name, parent, children) => { name, parent, children })
    (fun t => (t.name, t.parent, t.children))

/-! ## Catalogs -/

/-- Records under their numbers. -/
def records {α : Type} (c : Coder α) : Coder (SortedMap Nat α) :=
  (word64.pair c).list.map SortedMap.ofList SortedMap.entries

/-- The version that is written, in zigzag form: twice the number. -/
def version : Coder Unit :=
  word64.refine (fun n => if n = 2 then .ok () else .error .version) fun _ => 2

def catalog : Coder Catalog :=
  (version.pair ((records library).pair ((records folder).pair ((records item).pair
    (records tag))))).map
    (fun (_, libraries, folders, items, tags) =>
      Catalog.reindex { libraries, folders, items, tags, tagIndex := .empty })
    (fun c => ((), c.libraries, c.folders, c.items, c.tags))

end PictureSearch.Payload

namespace PictureSearch.Catalog

/-- The bytes that a catalog is kept as. -/
def toPayload (c : Catalog) : List UInt8 := Payload.catalog.encode c

/-- The catalog kept as the first of the bytes. -/
def ofPayload (bytes : List UInt8) : Except Payload.Malformed Catalog :=
  (Payload.catalog.decode bytes).map (·.1)

end PictureSearch.Catalog

import PictureSearch.Catalog.Basic
import PictureSearch.Text.Quoted

/-!
# Building a catalog

A catalog grows by one record at a time.  Each call lists the new record where it belongs; a call
that fails leaves the catalog as it was.  The record takes the number that is given, without one the
least free number of its kind.

As long as the numbers of a kind have no gaps, the number of its records is the only one that is
ever taken.  Gaps come in with a payload, and the order of its entries then decides which gap is
filled first.  So whoever reads a payload and goes on building may rely on the number being free,
and on nothing else.
-/

namespace PictureSearch

/-- Why a record cannot be added. -/
inductive BuildError
  | noLibrary (id : LibraryId)
  | noParentFolder
  | noFolder (id : FolderId)
  | noTag (id : TagId)
  | invalidTagName (name : String)
  | noParentTag (id : TagId)
  | tagExists (name : String) (parent : TagId)
  | rootTagExists (name : String)
  deriving DecidableEq, Repr

def BuildError.message : BuildError → String
  | .noLibrary id => "no library " ++ id.display
  | .noParentFolder => "no parent folder"
  | .noFolder id => "no folder " ++ id.display
  | .noTag id => "no tag " ++ id.display
  | .invalidTagName name => "invalid tag name " ++ Text.quoted name
  | .noParentTag id => "no parent tag " ++ id.display
  | .tagExists name parent =>
    "tag " ++ Text.quoted name ++ " already exists under " ++ parent.display
  | .rootTagExists name => "root tag " ++ Text.quoted name ++ " already exists"

/-- A picture to be added. -/
structure NewItem where
  name : String
  width : UInt32
  height : UInt32
  rating : UInt8 := 0
  nsfw : Bool := false
  comment : Option String := none
  size : UInt64 := 0
  tags : List TagId := []
  deriving DecidableEq, Repr

/-- The list without repetitions, each element at its first place. -/
def keepFirst {α : Type} [DecidableEq α] (l : List α) : List α :=
  l.foldl (fun kept a => if a ∈ kept then kept else kept ++ [a]) []

namespace Catalog

/-- Adds a library without folders. -/
def addLibrary (c : Catalog) (displayName machineName absolutePath : String) (nsfw : Bool)
    (owner : Option ViewerId) (id : LibraryId := ⟨c.libraries.freshKey⟩) : Catalog × LibraryId :=
  ({ c with
      libraries := c.libraries.insert id.index
        ⟨displayName, machineName, absolutePath, nsfw, owner, []⟩ },
    id)

/-- Adds a folder at the top of a library. -/
def addFolder (c : Catalog) (library : LibraryId) (name : String)
    (id : FolderId := ⟨c.folders.freshKey⟩) : Except BuildError (Catalog × FolderId) :=
  match c.library? library with
  | none => .error (.noLibrary library)
  | some _ =>
    .ok
      ({ c with
          folders := c.folders.insert id.index ⟨name, library, none, [], []⟩
          libraries := c.libraries.update library.index fun l =>
            { l with folders := l.folders ++ [id] } },
        id)

/-- Adds a folder inside another, in the library of that one. -/
def addSubfolder (c : Catalog) (parent : FolderId) (name : String)
    (id : FolderId := ⟨c.folders.freshKey⟩) : Except BuildError (Catalog × FolderId) :=
  match c.folder? parent with
  | none => .error .noParentFolder
  | some p =>
    let folders := c.folders.insert id.index ⟨name, p.library, some parent, [], []⟩
    .ok
      ({ c with
          folders := folders.update parent.index fun f =>
            { f with children := f.children ++ [id] } },
        id)

/-- Whether a tag may be added under a parent: the name is usable, the parent exists and the
name is free there. -/
def checkTag (c : Catalog) (name : String) (parent : Option TagId) : Except BuildError Unit :=
  if name.isEmpty || name.toList.contains '/' then .error (.invalidTagName name)
  else
    match parent with
    | some parent =>
      if (c.tag? parent).isNone then .error (.noParentTag parent)
      else if (c.childTag? (some parent) name).isSome then .error (.tagExists name parent)
      else .ok ()
    | none =>
      if (c.childTag? none name).isSome then .error (.rootTagExists name) else .ok ()

/-- Adds a tag at the root or under a parent. -/
def addTag (c : Catalog) (name : String) (parent : Option TagId)
    (id : TagId := ⟨c.tags.freshKey⟩) : Except BuildError (Catalog × TagId) := do
  c.checkTag name parent
  let tags := c.tags.insert id.index ⟨name, parent, []⟩
  let tags :=
    match parent with
    | some parent => tags.update parent.index fun t => { t with children := t.children ++ [id] }
    | none => tags
  return ({ c with tags, tagIndex := c.tagIndex.add name id }, id)

/-- Adds a picture to a folder; of a tag listed twice the first mention counts. -/
def addItem (c : Catalog) (folder : FolderId) (item : NewItem)
    (id : ItemId := ⟨c.items.freshKey⟩) : Except BuildError (Catalog × ItemId) :=
  if (c.folder? folder).isNone then .error (.noFolder folder)
  else
    match item.tags.find? fun id => (c.tag? id).isNone with
    | some missing => .error (.noTag missing)
    | none =>
      .ok
        ({ c with
            items := c.items.insert id.index
              { name := item.name, folder, width := item.width, height := item.height,
                rating := item.rating, nsfw := item.nsfw, comment := item.comment,
                size := item.size, tags := keepFirst item.tags }
            folders := c.folders.update folder.index fun f =>
              { f with items := f.items ++ [id] } },
          id)

end Catalog

end PictureSearch

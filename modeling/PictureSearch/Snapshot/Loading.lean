import PictureSearch.Catalog.Building
import PictureSearch.Catalog.Path
import PictureSearch.Snapshot.Decoding

/-!
# Loading snapshots

A catalog is built from a snapshot with a list of what is still to be added, whose last entry
comes first: all tags, then library by library its folders and their pictures.  The order decides
the numbers: of sibling tags and of sibling folders the last is entered first, and the folders at
one place get their numbers together before any of them is entered.
-/

namespace PictureSearch

/-- Why no catalog comes of a snapshot. -/
inductive LoadError
  | unreadable (path : String)
  | malformed
  | tag (cause : BuildError)
  | duplicateMachineName (name : String)
  | unknownTagPath (path item : String)
  | record (cause : BuildError)
  deriving DecidableEq, Repr

namespace LoadError

def message : LoadError → String
  | .unreadable path => "Failed to read catalog snapshot " ++ path
  | .malformed => "Failed to parse catalog snapshot"
  | .tag _ => "Failed to add tag"
  | .duplicateMachineName name => "duplicate library machine name " ++ Text.quoted name
  | .unknownTagPath path item =>
    "unknown tag path " ++ Text.quoted path ++ " on " ++ Text.quoted item
  | .record cause => cause.message

/-- The messages of the errors behind an error. -/
def causes : LoadError → List String
  | .tag cause => [cause.message]
  | _ => []

end LoadError

namespace Catalog

/-! ## Tags -/

/-- The entries for sibling tags, the last one first. -/
def tagEntries (parent : Option TagId) (tags : List Snapshot.Tag) :
    List (Option TagId × Snapshot.Tag) :=
  tags.reverse.map fun t => (parent, t)

theorem countAll_tagEntries (parent : Option TagId) (tags : List Snapshot.Tag) :
    Snapshot.Tag.countAll ((tagEntries parent tags).map (·.2)) = Snapshot.Tag.countAll tags := by
  simp [tagEntries, Function.comp_def, Snapshot.Tag.countAll_reverse]

/-- Adds the tags of a work list, the first entry first; the children of a tag come next, the
last of them first. -/
def addTags (c : Catalog) : List (Option TagId × Snapshot.Tag) → Except LoadError Catalog
  | [] => .ok c
  | (parent, .mk name children) :: work =>
    match c.addTag name parent with
    | .error e => .error (.tag e)
    | .ok (c, id) => c.addTags (tagEntries (some id) children ++ work)
  termination_by work => Snapshot.Tag.countAll (work.map (·.2))
  decreasing_by
    simp only [List.map_append, List.map_cons, Snapshot.Tag.countAll_append, countAll_tagEntries,
      Snapshot.Tag.countAll, Snapshot.Tag.count]
    omega

/-! ## Folders and pictures -/

/-- The tags that the paths of a picture lead to. -/
def resolveTags (c : Catalog) (item : Snapshot.Item) : Except LoadError (List TagId) :=
  item.tags.mapM fun path =>
    match c.tagAt? path with
    | some id => .ok id
    | none => .error (.unknownTagPath path item.name)

/-- Adds a picture to a folder. -/
def addSnapshotItem (folder : FolderId) (c : Catalog) (item : Snapshot.Item) :
    Except LoadError Catalog := do
  let tags ← c.resolveTags item
  let (c, _) ← (c.addItem folder
    { name := item.name, width := item.width, height := item.height, rating := item.rating,
      nsfw := item.nsfw, comment := item.comment, size := item.size, tags }).mapError .record
  return c

/-- Adds folders at one place with `add`; returns them with their numbers, the last one first, in
front of `work`. -/
def enterFolders (add : Catalog → String → Except BuildError (Catalog × FolderId))
    (c : Catalog) (work : List (FolderId × Snapshot.Folder)) :
    List Snapshot.Folder → Except LoadError (Catalog × List (FolderId × Snapshot.Folder))
  | [] => .ok (c, work)
  | f :: rest =>
    match add c f.name with
    | .error e => .error (.record e)
    | .ok (c, id) => enterFolders add c ((id, f) :: work) rest

theorem countAll_enterFolders
    {add : Catalog → String → Except BuildError (Catalog × FolderId)} {c d : Catalog}
    {work after : List (FolderId × Snapshot.Folder)} {fs : List Snapshot.Folder}
    (h : enterFolders add c work fs = .ok (d, after)) :
    Snapshot.Folder.countAll (after.map (·.2)) =
      Snapshot.Folder.countAll (work.map (·.2)) + Snapshot.Folder.countAll fs := by
  induction fs generalizing c work with
  | nil =>
    simp only [enterFolders, Except.ok.injEq, Prod.mk.injEq] at h
    simp [h.2, Snapshot.Folder.countAll]
  | cons f rest ih =>
    unfold enterFolders at h
    split at h
    · cases h
    · rw [ih h]
      simp only [List.map_cons, Snapshot.Folder.countAll]
      omega

/-- Fills the folders of a work list, the first entry first: its pictures, then the folders in
it, which come next, the last of them first. -/
def fillFolders (c : Catalog) :
    List (FolderId × Snapshot.Folder) → Except LoadError Catalog
  | [] => .ok c
  | (id, .mk _ folders items) :: work =>
    match items.foldlM (addSnapshotItem id) c with
    | .error e => .error e
    | .ok c =>
      match _h : enterFolders (fun c name => c.addSubfolder id name) c work folders with
      | .error e => .error e
      | .ok (c, after) => c.fillFolders after
  termination_by work => Snapshot.Folder.countAll (work.map (·.2))
  decreasing_by
    have := countAll_enterFolders (by assumption)
    simp only [List.map_cons, Snapshot.Folder.countAll, Snapshot.Folder.count]
    omega

/-! ## Libraries -/

/-- Adds a library with everything in it; its machine name has to be new. -/
def addSnapshotLibrary (c : Catalog) (l : Snapshot.Library) : Except LoadError Catalog := do
  if (c.libraryNamed? l.machineName).isSome then
    .error (.duplicateMachineName l.machineName)
  let (c, id) := c.addLibrary l.displayName l.machineName l.absolutePath l.nsfw
    (l.owner.map ViewerId.mk)
  let (c, work) ← enterFolders (fun c name => c.addFolder id name) c [] l.folders
  c.fillFolders work

/-- The catalog that a snapshot describes. -/
def ofSnapshot (s : Snapshot) : Except LoadError Catalog := do
  let c ← empty.addTags (tagEntries none s.tags)
  s.libraries.foldlM addSnapshotLibrary c

/-- The catalog that the text of a snapshot describes. -/
def ofSnapshotText (text : String) : Except LoadError Catalog :=
  match Snapshot.read? text with
  | none => .error .malformed
  | some s => ofSnapshot s

end Catalog

end PictureSearch

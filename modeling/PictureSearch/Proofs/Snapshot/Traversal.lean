import PictureSearch.Proofs.Outcome
import PictureSearch.Snapshot.Loading

/-!
# Loading without a work list

The work lists of the loader hold entries of several levels at once.  The same is done by going
down the trees of a snapshot: a tag and then the tags below it, a folder's pictures, all folders
in it and then what lies in those, always the last sibling first.

    c.addTags (tagEntries parent ts ++ work) =
      addTagTrees parent c ts >>= fun d => d.addTags work                  (addTags_tagEntries)

    c.fillFolders ((ids.zip fs).reverse ++ work) =
      fillTrees c ids fs >>= fun d => d.fillFolders work                   (fillFolders_zip)
-/

namespace PictureSearch.Catalog

/-! ## Going down the trees -/

mutual

/-- Adds a tag, then the tags below it. -/
def addTagTree (parent : Option TagId) (c : Catalog) : Snapshot.Tag → Except LoadError Catalog
  | .mk name children =>
    match c.addTag name parent with
    | .error e => .error (.tag e)
    | .ok (c, id) => addTagTrees (some id) c children

/-- Adds sibling tags with everything below them, from the last to the first. -/
def addTagTrees (parent : Option TagId) (c : Catalog) :
    List Snapshot.Tag → Except LoadError Catalog
  | [] => .ok c
  | t :: rest => addTagTrees parent c rest >>= fun c => addTagTree parent c t

end

/-- Adds folders at one place with `add`, in their order; returns their numbers. -/
def addFolders (add : Catalog → String → Except BuildError (Catalog × FolderId)) (c : Catalog) :
    List Snapshot.Folder → Except LoadError (Catalog × List FolderId)
  | [] => .ok (c, [])
  | f :: rest =>
    match add c f.name with
    | .error e => .error (.record e)
    | .ok (c, id) => (addFolders add c rest).map fun (d, ids) => (d, id :: ids)

mutual

/-- Fills a folder that has been added: its pictures, then the folders in it. -/
def fillTree (c : Catalog) (id : FolderId) : Snapshot.Folder → Except LoadError Catalog
  | .mk _ folders items =>
    items.foldlM (addSnapshotItem id) c >>= fun c =>
      addFolders (fun c name => c.addSubfolder id name) c folders >>= fun (c, ids) =>
        fillTrees c ids folders

/-- Fills the folders of one place, from the last to the first. -/
def fillTrees (c : Catalog) : List FolderId → List Snapshot.Folder → Except LoadError Catalog
  | id :: ids, f :: rest => fillTrees c ids rest >>= fun c => fillTree c id f
  | _, _ => .ok c

end

/-! ## Lemmas: tags -/

theorem addTags_nil (c : Catalog) : c.addTags [] = .ok c := by
  unfold addTags
  rfl

mutual

theorem addTags_cons (c : Catalog) (parent : Option TagId) (t : Snapshot.Tag)
    (work : List (Option TagId × Snapshot.Tag)) :
    c.addTags ((parent, t) :: work) = addTagTree parent c t >>= fun d => d.addTags work := by
  match t with
  | .mk name children =>
    rw [addTags, addTagTree]
    cases c.addTag name parent with
    | error e => rfl
    | ok added => exact addTags_tagEntries added.1 (some added.2) children work

/-- A work list is done by going down the trees in front and then doing the rest. -/
theorem addTags_tagEntries (c : Catalog) (parent : Option TagId) (ts : List Snapshot.Tag)
    (work : List (Option TagId × Snapshot.Tag)) :
    c.addTags (tagEntries parent ts ++ work) =
      addTagTrees parent c ts >>= fun d => d.addTags work := by
  match ts with
  | [] =>
    rw [addTagTrees]
    rfl
  | t :: rest =>
    have hsplit : tagEntries parent (t :: rest) ++ work =
        tagEntries parent rest ++ (parent, t) :: work := by
      simp [tagEntries]
    rw [hsplit, addTags_tagEntries c parent rest, addTagTrees, bind_assoc]
    exact congrArg _ (funext fun d => addTags_cons d parent t work)

end

theorem addTags_eq (c : Catalog) (parent : Option TagId) (ts : List Snapshot.Tag) :
    c.addTags (tagEntries parent ts) = addTagTrees parent c ts := by
  have h := c.addTags_tagEntries parent ts []
  simp only [List.append_nil, addTags_nil] at h
  rw [h]
  exact bind_pure _

/-! ## Lemmas: folders -/

theorem enterFolders_eq (add : Catalog → String → Except BuildError (Catalog × FolderId))
    (c : Catalog) (work : List (FolderId × Snapshot.Folder)) (fs : List Snapshot.Folder) :
    enterFolders add c work fs =
      (addFolders add c fs).map fun (d, ids) => (d, (ids.zip fs).reverse ++ work) := by
  induction fs generalizing c work with
  | nil => rfl
  | cons f rest ih =>
    rw [enterFolders, addFolders]
    cases add c f.name with
    | error e => rfl
    | ok added =>
      simp only
      rw [ih]
      cases addFolders add added.1 rest with
      | error e => rfl
      | ok entered => simp [Except.map]

theorem fillFolders_nil (c : Catalog) : c.fillFolders [] = .ok c := by
  unfold fillFolders
  rfl

theorem fillFolders_mk (c : Catalog) (id : FolderId) (name : String)
    (folders : List Snapshot.Folder) (items : List Snapshot.Item)
    (work : List (FolderId × Snapshot.Folder)) :
    c.fillFolders ((id, .mk name folders items) :: work) =
      items.foldlM (addSnapshotItem id) c >>= fun c =>
        enterFolders (fun c name => c.addSubfolder id name) c work folders >>= fun (c, after) =>
          c.fillFolders after := by
  rw [fillFolders]
  cases items.foldlM (addSnapshotItem id) c with
  | error e => rfl
  | ok filled =>
    change _ = enterFolders _ filled work folders >>= _
    dsimp only
    split
    · next h => rw [h]; rfl
    · next h => rw [h]; rfl

mutual

theorem fillFolders_cons (c : Catalog) (id : FolderId) (f : Snapshot.Folder)
    (work : List (FolderId × Snapshot.Folder)) :
    c.fillFolders ((id, f) :: work) = fillTree c id f >>= fun d => d.fillFolders work := by
  match f with
  | .mk name folders items =>
    rw [fillFolders_mk, fillTree, bind_assoc]
    refine congrArg _ (funext fun filled => ?_)
    rw [enterFolders_eq]
    cases addFolders (fun c name => c.addSubfolder id name) filled folders with
    | error e => rfl
    | ok entered => exact fillFolders_zip entered.1 entered.2 folders work

theorem fillFolders_zip (c : Catalog) (ids : List FolderId) (fs : List Snapshot.Folder)
    (work : List (FolderId × Snapshot.Folder)) :
    c.fillFolders ((ids.zip fs).reverse ++ work) =
      fillTrees c ids fs >>= fun d => d.fillFolders work := by
  match ids, fs with
  | [], fs =>
    rw [fillTrees]
    · rfl
    · simp
  | id :: ids, [] =>
    rw [fillTrees]
    · rfl
    · simp
  | id :: ids, f :: rest =>
    rw [List.zip_cons_cons, List.reverse_cons, List.append_assoc, List.singleton_append,
      fillFolders_zip c ids rest, fillTrees, bind_assoc]
    exact congrArg _ (funext fun d => fillFolders_cons d id f work)

end

theorem fillFolders_eq (c : Catalog) (ids : List FolderId) (fs : List Snapshot.Folder) :
    c.fillFolders (ids.zip fs).reverse = fillTrees c ids fs := by
  have h := c.fillFolders_zip ids fs []
  simp only [List.append_nil, fillFolders_nil] at h
  rw [h]
  exact bind_pure _

end PictureSearch.Catalog

import PictureSearch.Proofs.Snapshot.Folders

/-!
# Pictures where they lie

A picture of a catalog is depicted by the number of its library, the names of its folders from the
top, and itself with the paths of its tags.  Where folders of a snapshot are shown, the pictures in
them are depicted as the snapshot has them, with each path once:

    c.ShowsFolders library parent ids ts folders items → c.folderNamesAbove? parent = some above →
      items.map c.depict? =
        (picturesAll above ts).map fun p => some (Depiction.merged ⟨library, p.1, p.2⟩)
                                                                      (Built.map_depict?_folders)
-/

namespace PictureSearch.Catalog

/-! ## Statements -/

/-- The names of the folders from the top down to a folder. -/
def folderNames? (c : Catalog) (id : FolderId) : Option (List String) :=
  (c.folderLine id).chain?.map fun folders => folders.map (·.name)

/-- The names down to a place for folders: inside a folder, or at the top. -/
def folderNamesAbove? (c : Catalog) : Option FolderId → Option (List String)
  | none => some []
  | some parent => c.folderNames? parent

/-- A picture where it lies, with the paths of its tags; nothing where a record is missing. -/
def depict? (c : Catalog) (id : ItemId) : Option Snapshot.Depiction := do
  let item ← c.item? id
  let folder ← c.folder? item.folder
  let folders ← c.folderNames? item.folder
  let tags ← item.tags.mapM c.tagPath?
  return {
    library := folder.library, folders
    item := { name := item.name, width := item.width, height := item.height, rating := item.rating,
              nsfw := item.nsfw, comment := item.comment, size := item.size, tags } }

/-! ## Lemmas -/

theorem map_eq_map_of_forall₂ {α β γ : Type} {f : α → γ} {g : β → γ} {l : List α} {l' : List β}
    (h : List.Forall₂ (fun a b => f a = g b) l l') : l.map f = l'.map g := by
  rwa [← List.forall₂_eq_eq_eq, List.forall₂_map_left_iff, List.forall₂_map_right_iff]

/-- The names down to a folder are those down to its place and its own. -/
theorem Built.folderNames?_eq {c : Catalog} (h : c.Built) {id : FolderId} {f : Folder}
    {above : List String} (hf : c.folder? id = some f)
    (ha : c.folderNamesAbove? f.parent = some above) :
    c.folderNames? id = some (above ++ [f.name]) := by
  cases hp : f.parent with
  | none =>
    rw [hp] at ha
    cases ha
    rw [folderNames?, h.folderLine_eq (.root hf hp)]
    rfl
  | some parent =>
    rw [hp] at ha
    obtain ⟨_, g, hg, _⟩ := above_of_ranked FolderId.index h.links.folders.ranked hf hp
    have hg : c.folder? parent = some g := hg
    obtain ⟨fs, hline⟩ := h.exists_folderLine hg
    have hnames : c.folderNames? parent = some above := ha
    rw [folderNames?, h.folderLine_eq hline] at hnames
    rw [folderNames?, h.folderLine_eq (.child hf hp hline)]
    cases hnames
    simp [Ascent.chain?]

theorem depict?_of_showsItem {c : Catalog} {folder : FolderId} {f : Folder} {names : List String}
    (hf : c.folder? folder = some f) (hn : c.folderNames? folder = some names) {id : ItemId}
    {item : Snapshot.Item} (hi : c.ShowsItem folder id item) :
    c.depict? id = some (Snapshot.Depiction.merged ⟨f.library, names, item⟩) := by
  obtain ⟨tags, hi, htags⟩ := hi
  simp only [depict?, hi, Snapshot.Item.record, Option.bind_eq_bind, Option.bind_some, hf, hn,
    mapM_of_forall₂ htags]
  rfl

mutual

theorem Built.map_depict?_folder {c : Catalog} (h : c.Built) {library : LibraryId}
    {parent : Option FolderId} {id : FolderId} {t : Snapshot.Folder} {folders : List FolderId}
    {items : List ItemId} (hs : c.ShowsFolder library parent id t folders items)
    {above : List String} (ha : c.folderNamesAbove? parent = some above) :
    items.map c.depict? =
      (t.pictures above).map fun p => some (Snapshot.Depiction.merged ⟨library, p.1, p.2⟩) := by
  match t with
  | .mk name ts is =>
    cases hs with
    | @mk _ _ f _ _ below inside hf hl hp hi hts =>
      have hnames := h.folderNames?_eq hf (hp ▸ ha)
      have hinside := h.map_depict?_folders hts hnames
      have hown := map_eq_map_of_forall₂ (hi.imp fun _ _ => depict?_of_showsItem hf hnames)
      rw [List.map_append, hown, hinside, Snapshot.Folder.pictures, List.map_append, List.map_map,
        hl]
      rfl

theorem Built.map_depict?_folders {c : Catalog} (h : c.Built) {library : LibraryId}
    {parent : Option FolderId} {ids : List FolderId} {ts : List Snapshot.Folder}
    {folders : List FolderId} {items : List ItemId}
    (hs : c.ShowsFolders library parent ids ts folders items)
    {above : List String} (ha : c.folderNamesAbove? parent = some above) :
    items.map c.depict? =
      (Snapshot.Folder.picturesAll above ts).map fun p =>
        some (Snapshot.Depiction.merged ⟨library, p.1, p.2⟩) := by
  match ts with
  | [] =>
    cases hs
    rfl
  | t :: ts =>
    cases hs with
    | cons ht hts =>
      rw [List.map_append, h.map_depict?_folder ht ha, h.map_depict?_folders hts ha,
        Snapshot.Folder.picturesAll, List.map_append]

end

end PictureSearch.Catalog

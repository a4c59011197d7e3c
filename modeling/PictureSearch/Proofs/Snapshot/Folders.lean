import PictureSearch.Proofs.Snapshot.Growth

/-!
# Loading folders

`ShowsFolder` says that a folder of a catalog is that of a snapshot: it has the same name, its
children are the folders in it, one by one, and its list of pictures shows the pictures in it.
Filling a folder that has just been added goes well just where the pictures below it name tags that
exist, and then the folder is shown, with new folders and pictures and nothing else:

    c.folder? id = some ⟨t.name, library, parent, [], []⟩ → fillTree c id t = .ok d →
      ∃ folders items, c.Grown [id] folders items d ∧ d.libraries = c.libraries ∧
        d.ShowsFolder library parent id t (id :: folders) items                  (fillTree_ok)
-/

namespace PictureSearch.Catalog

/-! ## Statements -/

mutual

/-- The folder with the number `id` is the given one, at the top of the library or inside `parent`.
The lists hold it and all folders below it, and all pictures in these. -/
inductive ShowsFolder (c : Catalog) (library : LibraryId) :
    Option FolderId → FolderId → Snapshot.Folder → List FolderId → List ItemId → Prop
  | mk {parent : Option FolderId} {id : FolderId} {f : Folder} {folders : List Snapshot.Folder}
      {items : List Snapshot.Item} {below : List FolderId} {inside : List ItemId} :
      c.folder? id = some f → f.library = library → f.parent = parent →
        List.Forall₂ (c.ShowsItem id) f.items items →
          ShowsFolders c library (some id) f.children folders below inside →
            ShowsFolder c library parent id (.mk f.name folders items) (id :: below)
              (f.items ++ inside)

/-- The folders of one place are the given ones, in this order. -/
inductive ShowsFolders (c : Catalog) (library : LibraryId) :
    Option FolderId → List FolderId → List Snapshot.Folder → List FolderId → List ItemId → Prop
  | nil {parent : Option FolderId} : ShowsFolders c library parent [] [] [] []
  | cons {parent : Option FolderId} {id : FolderId} {ids : List FolderId} {t : Snapshot.Folder}
      {ts : List Snapshot.Folder} {folders folders' : List FolderId} {items items' : List ItemId} :
      ShowsFolder c library parent id t folders items →
        ShowsFolders c library parent ids ts folders' items' →
          ShowsFolders c library parent (id :: ids) (t :: ts) (folders ++ folders')
            (items ++ items')

end

/-- The folders have been added at one place and are still empty. -/
def Entered (c : Catalog) (library : LibraryId) (parent : Option FolderId) (ids : List FolderId)
    (ts : List Snapshot.Folder) : Prop :=
  List.Forall₂ (fun id t => c.folder? id = some ⟨t.name, library, parent, [], []⟩) ids ts

/-! ## Lemmas: what is shown stays -/

section Stays

variable {c d : Catalog} {library : LibraryId} {changed newFolders : List FolderId}
  {newItems : List ItemId}

mutual

theorem ShowsFolder.of_grown {parent : Option FolderId} {id : FolderId} {t : Snapshot.Folder}
    {folders : List FolderId} {items : List ItemId}
    (hs : c.ShowsFolder library parent id t folders items)
    (h : c.Grown changed newFolders newItems d) (hd : ∀ id ∈ folders, id ∉ changed) :
    d.ShowsFolder library parent id t folders items := by
  match t with
  | .mk name ts is =>
    cases hs with
    | mk hf hl hp hi hts =>
      obtain ⟨hid, hbelow⟩ := List.forall_mem_cons.1 hd
      exact .mk (h.folder hid hf) hl hp (hi.imp fun _ _ => h.showsItem) (hts.of_grown h hbelow)

theorem ShowsFolders.of_grown {parent : Option FolderId} {ids : List FolderId}
    {ts : List Snapshot.Folder} {folders : List FolderId} {items : List ItemId}
    (hs : c.ShowsFolders library parent ids ts folders items)
    (h : c.Grown changed newFolders newItems d) (hd : ∀ id ∈ folders, id ∉ changed) :
    d.ShowsFolders library parent ids ts folders items := by
  match ts with
  | [] =>
    cases hs
    exact .nil
  | t :: ts =>
    cases hs with
    | cons ht hts =>
      obtain ⟨hhead, hrest⟩ := List.forall_mem_append.1 hd
      exact .cons (ht.of_grown h hhead) (hts.of_grown h hrest)

end

end Stays

/-! ## Lemmas: adding the folders of one place -/

section Entering

variable {c : Catalog}

/-- Folders can be added inside one that exists. -/
theorem addSubfolders_ok (h : c.Built) {parent : FolderId} {p : Folder}
    (hp : c.folder? parent = some p) (ts : List Snapshot.Folder) :
    ∃ d ids, addFolders (fun c name => c.addSubfolder parent name) c ts = .ok (d, ids) ∧
      c.Grown [parent] ids [] d ∧ d.libraries = c.libraries ∧
      d.folder? parent = some { p with children := p.children ++ ids } ∧
      d.Entered p.library (some parent) ids ts := by
  induction ts generalizing c p with
  | nil => exact ⟨c, [], rfl, .refl h _, rfl, by simpa using hp, .nil⟩
  | cons t rest ih =>
    obtain ⟨e, he⟩ : ∃ e, c.Adds (.subfolder parent t.name) e := ⟨_, .subfolder t.name hp⟩
    obtain ⟨hone, hlibraries, hparent, hnew⟩ := grown_of_adds_subfolder h hp he
    obtain ⟨d, ids, hd, hrest, hlibraries', hparent', hentered⟩ := ih hone.built hparent
    have hne : (⟨c.folders.freshKey⟩ : FolderId) ∉ [parent] := by
      have hold := hone.not_mem_of_folder? hp
      rwa [List.mem_singleton, eq_comm, ← List.mem_singleton]
    refine ⟨d, ⟨c.folders.freshKey⟩ :: ids, ?_, hone.trans hrest fun _ => Or.inl,
      hlibraries'.trans hlibraries, ?_, .cons (hrest.folder hne hnew) hentered⟩
    · rw [addFolders, addSubfolder_eq_ok_iff.2 ⟨he, rfl⟩]
      simp only [hd]
      rfl
    · rw [hparent', List.append_assoc, List.singleton_append]

/-- Folders can be added at the top of a library that exists. -/
theorem addTopFolders_ok (h : c.Built) {library : LibraryId} {l : Library}
    (hl : c.library? library = some l) (ts : List Snapshot.Folder) :
    ∃ d ids, addFolders (fun c name => c.addFolder library name) c ts = .ok (d, ids) ∧
      c.Grown [] ids [] d ∧ d.libraries.size = c.libraries.size ∧
      (∀ id, id ≠ library → d.library? id = c.library? id) ∧
      d.library? library = some { l with folders := l.folders ++ ids } ∧
      d.Entered library none ids ts := by
  induction ts generalizing c l with
  | nil => exact ⟨c, [], rfl, .refl h _, rfl, fun _ _ => rfl, by simpa using hl, .nil⟩
  | cons t rest ih =>
    obtain ⟨e, he⟩ : ∃ e, c.Adds (.folder library t.name) e := ⟨_, .folder t.name hl⟩
    obtain ⟨hone, hsize, hothers, hlibrary, hnew⟩ := grown_of_adds_folder h hl he
    obtain ⟨d, ids, hd, hrest, hsize', hothers', hlibrary', hentered⟩ := ih hone.built hlibrary
    refine ⟨d, ⟨c.folders.freshKey⟩ :: ids, ?_, hone.trans hrest fun _ => Or.inl,
      hsize'.trans hsize, fun id hid => (hothers' id hid).trans (hothers id hid), ?_,
      .cons (hrest.folder List.not_mem_nil hnew) hentered⟩
    · rw [addFolders, addFolder_eq_ok_iff.2 ⟨he, rfl⟩]
      simp only [hd]
      rfl
    · rw [hlibrary', List.append_assoc, List.singleton_append]

end Entering

/-! ## Lemmas: filling folders -/

/-- Where its pictures can be loaded, a folder gets them and all folders in it, which are then
filled. -/
theorem fillTree_of_items {c e : Catalog} (h : c.Built) {library : LibraryId}
    {parent : Option FolderId} {id : FolderId} {name : String}
    (hf : c.folder? id = some ⟨name, library, parent, [], []⟩) (ts : List Snapshot.Folder)
    {is : List Snapshot.Item} (he : is.foldlM (addSnapshotItem id) c = .ok e) :
    ∃ d ids items, fillTree c id (.mk name ts is) = fillTrees d ids ts ∧
      c.Grown [id] ids items d ∧ d.libraries = c.libraries ∧
      d.folder? id = some ⟨name, library, parent, ids, items⟩ ∧
      List.Forall₂ (d.ShowsItem id) items is ∧ d.Entered library (some id) ids ts := by
  obtain ⟨items, hitems, hlibraries, hfolder, hshown⟩ := addSnapshotItems_ok h hf he
  obtain ⟨d, ids, hd, hsubs, hlibraries', hfolder', hentered⟩ :=
    addSubfolders_ok hitems.built hfolder ts
  refine ⟨d, ids, items, ?_, ?_, hlibraries'.trans hlibraries, hfolder',
    hshown.imp fun _ _ => hsubs.showsItem, hentered⟩
  · rw [fillTree, he]
    show (addFolders _ e ts >>= fun added => fillTrees added.1 added.2 ts) = _
    rw [hd]
    rfl
  · have hboth := hitems.trans hsubs fun _ => Or.inl
    rwa [List.append_nil] at hboth

mutual

theorem fillTree_ok {c d : Catalog} (h : c.Built) {library : LibraryId}
    {parent : Option FolderId} {id : FolderId} {t : Snapshot.Folder}
    (hf : c.folder? id = some ⟨t.name, library, parent, [], []⟩) (hd : fillTree c id t = .ok d) :
    ∃ folders items, c.Grown [id] folders items d ∧ d.libraries = c.libraries ∧
      d.ShowsFolder library parent id t (id :: folders) items := by
  match t with
  | .mk name ts is =>
    have hf : c.folder? id = some ⟨name, library, parent, [], []⟩ := hf
    obtain ⟨e, he⟩ : ∃ e, is.foldlM (addSnapshotItem id) c = .ok e := by
      rw [fillTree] at hd
      obtain ⟨e, he, _⟩ := bind_eq_ok_iff.1 hd
      exact ⟨e, he⟩
    obtain ⟨e', ids, items, heq, hgrown, hlibraries, hfolder, hshown, hentered⟩ :=
      fillTree_of_items h hf ts he
    rw [heq] at hd
    obtain ⟨below, inside, all, hbelow, hlibraries', hall, hperm⟩ :=
      fillTrees_ok hgrown.built hgrown.nodup_folders hentered hd
    have hid : id ∉ ids := hgrown.not_mem_of_folder? hf
    have hboth := hgrown.trans hbelow fun _ => Or.inr
    refine ⟨all, items ++ inside, hboth.of_perm hperm.symm (.refl _),
      hlibraries'.trans hlibraries, ?_⟩
    exact .mk (hbelow.folder hid hfolder) rfl rfl (hshown.imp fun _ _ => hbelow.showsItem) hall

theorem fillTrees_ok {c d : Catalog} (h : c.Built) {library : LibraryId}
    {parent : Option FolderId} {ids : List FolderId} {ts : List Snapshot.Folder}
    (hids : ids.Nodup) (hentered : c.Entered library parent ids ts)
    (hd : fillTrees c ids ts = .ok d) :
    ∃ folders items all, c.Grown ids folders items d ∧ d.libraries = c.libraries ∧
      d.ShowsFolders library parent ids ts all items ∧ all.Perm (ids ++ folders) := by
  match ts with
  | [] =>
    cases hentered
    cases hd
    exact ⟨[], [], [], .refl h _, rfl, .nil, .nil⟩
  | t :: ts =>
    cases hentered with
    | @cons id _ ids _ hhead hrest =>
      obtain ⟨hid, hids⟩ := List.nodup_cons.1 hids
      rw [fillTrees] at hd
      obtain ⟨e, he, hd⟩ := bind_eq_ok_iff.1 hd
      obtain ⟨folders, items, all, hgrown, hlibraries, hall, hperm⟩ := fillTrees_ok h hids hrest he
      obtain ⟨folders', items', hgrown', hlibraries', htree⟩ :=
        fillTree_ok hgrown.built (hgrown.folder hid hhead) hd
      -- the later siblings are filled first, and filling `id` changes none of their folders
      have hapart : ∀ x ∈ all, x ∉ [id] := by
        intro x hx hxid
        rw [List.mem_singleton.1 hxid, hperm.mem_iff, List.mem_append] at hx
        exact hx.elim hid (hgrown.not_mem_of_folder? hhead)
      refine ⟨folders ++ folders', items' ++ items, (id :: folders') ++ all, ?_,
        hlibraries'.trans hlibraries, .cons htree (hall.of_grown hgrown' hapart), ?_⟩
      · have hboth := (hgrown.of_subset (List.subset_cons_self id ids)).trans hgrown' fun x hx =>
          Or.inl (List.mem_singleton.1 hx ▸ List.mem_cons_self)
        exact hboth.of_perm (.refl _) List.perm_append_comm
      · refine List.Perm.cons id ((hperm.append_left folders').trans ?_)
        exact List.perm_append_comm.trans (.of_eq (List.append_assoc ..))

end

mutual

theorem exists_fillTree_iff {c : Catalog} (h : c.Built) {library : LibraryId}
    {parent : Option FolderId} {id : FolderId} {t : Snapshot.Folder}
    (hf : c.folder? id = some ⟨t.name, library, parent, [], []⟩) (above : List String) :
    (∃ d, fillTree c id t = .ok d) ↔ ∀ p ∈ t.pictures above, c.Resolves p.2 := by
  match t with
  | .mk name ts is =>
    have hf : c.folder? id = some ⟨name, library, parent, [], []⟩ := hf
    have hitems := exists_addSnapshotItems_iff h hf is
    rw [Snapshot.Folder.pictures, List.forall_mem_append, List.forall_mem_map, ← hitems]
    cases he : is.foldlM (addSnapshotItem id) c with
    | error e => simp [fillTree, he, bind, Except.bind]
    | ok e =>
      obtain ⟨d, ids, items, heq, hgrown, _, _, _, hentered⟩ := fillTree_of_items h hf ts he
      have hbelow := exists_fillTrees_iff hgrown.built hgrown.nodup_folders hentered
        (above ++ [name])
      rw [heq, hbelow, and_iff_right ⟨e, rfl⟩]
      exact forall₂_congr fun p _ => hgrown.resolves_iff

theorem exists_fillTrees_iff {c : Catalog} (h : c.Built) {library : LibraryId}
    {parent : Option FolderId} {ids : List FolderId} {ts : List Snapshot.Folder}
    (hids : ids.Nodup) (hentered : c.Entered library parent ids ts) (above : List String) :
    (∃ d, fillTrees c ids ts = .ok d) ↔
      ∀ p ∈ Snapshot.Folder.picturesAll above ts, c.Resolves p.2 := by
  match ts with
  | [] =>
    cases hentered
    simp [fillTrees, Snapshot.Folder.picturesAll]
  | t :: ts =>
    cases hentered with
    | @cons id _ ids _ hhead hrest =>
      obtain ⟨hid, hids⟩ := List.nodup_cons.1 hids
      rw [Snapshot.Folder.picturesAll, List.forall_mem_append, and_comm, fillTrees]
      refine exists_bind_eq_ok_iff (exists_fillTrees_iff h hids hrest above) fun e he => ?_
      obtain ⟨_, _, _, hgrown, _⟩ := fillTrees_ok h hids hrest he
      have hfirst := exists_fillTree_iff hgrown.built (hgrown.folder hid hhead) above
      exact hfirst.trans (forall₂_congr fun p _ => hgrown.resolves_iff)

end

end PictureSearch.Catalog

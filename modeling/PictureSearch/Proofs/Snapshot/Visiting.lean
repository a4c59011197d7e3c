import PictureSearch.Proofs.Catalog.Extension
import PictureSearch.Proofs.Search.Selection
import PictureSearch.Proofs.Snapshot.Pictures

/-!
# Visiting a snapshot

A snapshot is visited by going down its trees: first the tags, of siblings the last one first and
each one before those below it; then the libraries in their order.  A library gets its top folders,
and a folder its pictures and then the folders in it, in their order; these are then visited from
the last to the first.  Records are added by calls alone, as if none of them could fail, and the
pictures come one behind the other in the order of the visit:

    c.Place library parent above → c.Placed library parent ids ts → visitFolders c ids ts = .ok d →
      c.Gathers ((visitedAll above ts).map fun p => ⟨library, p.1, p.2⟩) d    (gathers_visitFolders)
-/

namespace PictureSearch

/-! ## The order of a visit -/

namespace Snapshot

mutual

/-- The pictures in a folder and below it, in the order in which they are visited, each with the
names of the folders from the top down to it, which start with `above`. -/
def Folder.visited (above : List String) : Folder → List (List String × Item)
  | .mk name folders items =>
    items.map (fun item => (above ++ [name], item)) ++ Folder.visitedAll (above ++ [name]) folders

def Folder.visitedAll (above : List String) : List Folder → List (List String × Item)
  | [] => []
  | f :: rest => Folder.visitedAll above rest ++ f.visited above

end

/-- The pictures of libraries that are numbered from `n` on, in the order of a visit. -/
def visitedFrom (n : Nat) : List Library → List Depiction
  | [] => []
  | l :: rest =>
    (Folder.visitedAll [] l.folders).map (fun p => ⟨⟨n⟩, p.1, p.2⟩) ++ visitedFrom (n + 1) rest

/-- All pictures, in the order of a visit. -/
def visited (s : Snapshot) : List Depiction := visitedFrom 0 s.libraries

end Snapshot

namespace Catalog

/-! ## Going down a snapshot -/

/-- The first path of a picture that leads to no tag. -/
def unknownPath? (c : Catalog) (item : Snapshot.Item) : Option String :=
  item.tags.find? fun path => (c.tagAt? path).isNone

/-- The call that adds a picture with the tags that its paths lead to. -/
def itemCall (c : Catalog) (folder : FolderId) (item : Snapshot.Item) : BuildCall :=
  .item folder (item.withTags (item.tags.filterMap c.tagAt?))

/-- Adds the pictures of a folder in their order, up to the first one with a path that leads to no
tag; the first such path is reported. -/
def visitItems (folder : FolderId) (c : Catalog) : List Snapshot.Item → Except LoadError Catalog
  | [] => .ok c
  | item :: rest =>
    match c.unknownPath? item with
    | some path => .error (.unknownTagPath path item.name)
    | none => visitItems folder (c.after (c.itemCall folder item)) rest

/-- Adds folders at one place, in their order; returns their numbers. -/
def placeFolders (place : String → BuildCall) (c : Catalog) :
    List Snapshot.Folder → Catalog × List FolderId
  | [] => (c, [])
  | f :: rest =>
    let placed := placeFolders place (c.after (place f.name)) rest
    (placed.1, ⟨c.folders.size⟩ :: placed.2)

mutual

/-- Adds what lies in a folder: its pictures, all folders in it, and what lies in those. -/
def visitFolder (c : Catalog) (id : FolderId) : Snapshot.Folder → Except LoadError Catalog
  | .mk _ folders items =>
    visitItems id c items >>= fun c =>
      let placed := placeFolders (.subfolder id) c folders
      visitFolders placed.1 placed.2 folders

/-- Adds what lies in the folders of one place, from the last to the first. -/
def visitFolders (c : Catalog) : List FolderId → List Snapshot.Folder → Except LoadError Catalog
  | id :: ids, f :: rest => visitFolders c ids rest >>= fun c => visitFolder c id f
  | _, _ => .ok c

end

/-- The call that adds a library. -/
def libraryCall (l : Snapshot.Library) : BuildCall :=
  .library l.displayName l.machineName l.absolutePath l.nsfw (l.owner.map ViewerId.mk)

/-- Adds a library, all its top folders and what lies in those. -/
def visitLibrary (c : Catalog) (l : Snapshot.Library) : Except LoadError Catalog :=
  if (c.libraryNamed? l.machineName).isSome then .error (.duplicateMachineName l.machineName)
  else
    let placed := placeFolders (.folder ⟨c.libraries.size⟩) (c.after (libraryCall l)) l.folders
    visitFolders placed.1 placed.2 l.folders

/-- Adds libraries in their order. -/
def visitLibraries (c : Catalog) : List Snapshot.Library → Except LoadError Catalog
  | [] => .ok c
  | l :: rest => visitLibrary c l >>= fun c => visitLibraries c rest

/-- Adds all tags, then library by library. -/
def visit (s : Snapshot) : Except LoadError Catalog :=
  addTagTrees none empty s.tags >>= fun c => visitLibraries c s.libraries

/-! ## Statements -/

/-- A place for folders is there: the top of the library, or a folder in it; the names of the
folders down to it are `above`. -/
inductive Place (c : Catalog) (library : LibraryId) : Option FolderId → List String → Prop
  | top {l : Library} : c.library? library = some l → Place c library none []
  | inside {id : FolderId} {f : Folder} {names : List String} :
      c.folder? id = some f → f.library = library → c.folderNames? id = some names →
        Place c library (some id) names

/-- The call that adds a folder at a place. -/
def placeCall (library : LibraryId) : Option FolderId → String → BuildCall
  | none => .folder library
  | some parent => .subfolder parent

/-- The folders have been added at one place, whatever has been put in them since. -/
def Placed (c : Catalog) (library : LibraryId) (parent : Option FolderId) (ids : List FolderId)
    (ts : List Snapshot.Folder) : Prop :=
  List.Forall₂ (fun id t =>
    ∃ f, c.folder? id = some f ∧ f.outline = ⟨t.name, library, parent, [], []⟩) ids ts

/-- All records stay, and the pictures that come behind the others are the given ones, in this
order. -/
def Gathers (c : Catalog) (pictures : List Snapshot.Depiction) (d : Catalog) : Prop :=
  ∃ new, c.Extends new d ∧ new.map d.depict? = pictures.map fun p => some p.merged

/-! ## Lemmas: what stays -/

theorem mapM_congr_of_mem {α β : Type} {f g : α → Option β} {l : List α}
    (h : ∀ a ∈ l, f a = g a) : l.mapM f = l.mapM g := by
  induction l with
  | nil => rfl
  | cons a l ih =>
    rw [List.forall_mem_cons] at h
    rw [List.mapM_cons, List.mapM_cons, h.1, ih h.2]

section Stays

variable {c d : Catalog} {new : List ItemId} (hc : c.Built) (h : c.Extends new d)

include hc h

theorem folderNames?_of_extends {id : FolderId} {f : Folder} (hf : c.folder? id = some f) :
    d.folderNames? id = c.folderNames? id := by
  obtain ⟨fs, hline⟩ := hc.exists_folderLine hf
  obtain ⟨gs, hline', houtlines⟩ := h.folderLine hline
  rw [folderNames?, folderNames?, h.built.folderLine_eq hline', hc.folderLine_eq hline]
  exact congrArg some (Folder.map_name_eq houtlines)

/-- A picture is depicted as before. -/
theorem depict?_of_extends {id : ItemId} {item : Item} (hi : c.item? id = some item) :
    d.depict? id = c.depict? id := by
  obtain ⟨f, hf⟩ := hc.exists_folder hi
  obtain ⟨g, hg, hgf⟩ := h.folder hf
  have hlibrary := (Folder.outline_eq_iff.1 hgf).2.1
  have htags : item.tags.mapM d.tagPath? = item.tags.mapM c.tagPath? := by
    apply mapM_congr_of_mem
    intro tag htag
    obtain ⟨t, ht⟩ := hc.links.items.tags hi tag.index (List.mem_map_of_mem htag)
    exact h.tagPath?_eq hc ht
  simp only [depict?, h.item hi, hi, Option.bind_eq_bind, Option.bind_some, hg, hf, htags,
    folderNames?_of_extends hc h hf, hlibrary]

theorem Place.of_extends {library : LibraryId} {parent : Option FolderId} {above : List String}
    (hp : c.Place library parent above) : d.Place library parent above := by
  cases hp with
  | top hl =>
    obtain ⟨m, hm, _⟩ := h.library hl
    exact .top hm
  | inside hf hl hn =>
    obtain ⟨g, hg, hgf⟩ := h.folder hf
    have hlibrary := (Folder.outline_eq_iff.1 hgf).2.1
    exact .inside hg (hlibrary.trans hl) ((folderNames?_of_extends hc h hf).trans hn)

end Stays

theorem Placed.of_extends {c d : Catalog} {new : List ItemId} {library : LibraryId}
    {parent : Option FolderId} {ids : List FolderId} {ts : List Snapshot.Folder}
    (hp : c.Placed library parent ids ts) (h : c.Extends new d) :
    d.Placed library parent ids ts := by
  refine hp.imp fun id t hf => ?_
  obtain ⟨f, hf, houtline⟩ := hf
  obtain ⟨g, hg, hgf⟩ := h.folder hf
  exact ⟨g, hg, hgf.trans houtline⟩

namespace Gathers

variable {c d e : Catalog} {pictures pictures' : List Snapshot.Depiction}

theorem refl (h : c.Built) : c.Gathers [] c := ⟨[], .refl h, rfl⟩

theorem exists_extends (h : c.Gathers pictures d) : ∃ new, c.Extends new d := by
  obtain ⟨new, hext, _⟩ := h
  exact ⟨new, hext⟩

theorem of_extends (h : c.Extends [] d) : c.Gathers [] d := ⟨[], h, rfl⟩

theorem trans (h : c.Gathers pictures d) (h' : d.Gathers pictures' e) :
    c.Gathers (pictures ++ pictures') e := by
  obtain ⟨new, hext, hnew⟩ := h
  obtain ⟨new', hext', hnew'⟩ := h'
  refine ⟨new ++ new', hext.trans hext', ?_⟩
  have hkept : new.map e.depict? = new.map d.depict? := by
    apply List.map_congr_left
    intro id hid
    have hmem : id ∈ d.itemIds := by
      rw [hext.itemIds]
      exact List.mem_append_right _ hid
    obtain ⟨item, hitem⟩ := (d.mem_itemIds_iff id).1 hmem
    exact depict?_of_extends hext.built hext' hitem
  rw [List.map_append, List.map_append, hkept, hnew, hnew']

end Gathers

/-! ## Lemmas: pictures -/

theorem resolveTags_eq (c : Catalog) (item : Snapshot.Item) :
    c.resolveTags item =
      match c.unknownPath? item with
      | some path => .error (.unknownTagPath path item.name)
      | none => .ok (item.tags.filterMap c.tagAt?) := by
  unfold resolveTags unknownPath?
  induction item.tags with
  | nil => rfl
  | cons path rest ih =>
    rw [List.mapM_cons, ih]
    cases hpath : c.tagAt? path with
    | none => simp [hpath, bind, Except.bind]
    | some id =>
      simp only [hpath, List.find?_cons, Option.isNone_some, List.filterMap_cons]
      cases rest.find? fun path => (c.tagAt? path).isNone <;> rfl

section Pictures

variable {c d : Catalog} (h : c.Built) {library : LibraryId} {folder : FolderId}
  {names : List String} (hin : c.Place library (some folder) names)

include h hin

/-- A picture is added with those of its tags that exist, whatever else it is. -/
theorem adds_itemCall (item : Snapshot.Item) :
    c.Adds (c.itemCall folder item) (c.after (c.itemCall folder item)) := by
  have htags : ∀ id ∈ item.tags.filterMap c.tagAt?, ∃ t, c.tag? id = some t := by
    intro id hid
    obtain ⟨path, _, hpath⟩ := List.mem_filterMap.1 hid
    exact h.exists_tag?_of_tagPath? (h.tagAt?_eq_some_iff.1 hpath)
  cases hin with
  | inside hf =>
    have hadds : c.Adds (c.itemCall folder item) _ := .item hf htags
    rwa [hadds.after_eq]

variable {item : Snapshot.Item} (hknown : c.unknownPath? item = none)

include hknown

theorem addSnapshotItem_of_known :
    addSnapshotItem folder c item = .ok (c.after (c.itemCall folder item)) := by
  refine addSnapshotItem_eq_ok_iff.2 ⟨item.tags.filterMap c.tagAt?, ⟨c.items.freshKey⟩, ?_, ?_⟩
  · rw [resolveTags_eq, hknown]
  · exact addItem_eq_ok_iff.2 ⟨adds_itemCall h hin item, rfl⟩

/-- A picture that is added comes behind all others, and is what it was in the snapshot. -/
theorem gathers_item :
    c.Gathers [⟨library, names, item⟩] (c.after (c.itemCall folder item)) := by
  have hadds := adds_itemCall h hin item
  have hext := extends_of_adds h hadds
  have hnew : c.newItem? (c.itemCall folder item) = some ⟨c.items.freshKey⟩ :=
    newItem?_of_adds_item hadds
  rw [hnew] at hext
  have hok := addSnapshotItem_of_known h hin hknown
  have hin' := hin.of_extends h hext
  cases hin with
  | inside hf =>
    obtain ⟨_, _, _, hshown⟩ := addSnapshotItem_ok h hf hok
    cases hin' with
    | inside hg hlibrary hn =>
      refine ⟨[⟨c.items.freshKey⟩], hext, ?_⟩
      rw [List.map_singleton, depict?_of_showsItem hg hn hshown, hlibrary]
      rfl

omit hknown

theorem gathers_visitItems {items : List Snapshot.Item} (hd : visitItems folder c items = .ok d) :
    c.Gathers (items.map fun item => ⟨library, names, item⟩) d := by
  induction items generalizing c with
  | nil =>
    cases hd
    exact .refl h
  | cons item rest ih =>
    rw [visitItems] at hd
    cases hknown : c.unknownPath? item with
    | some path =>
      rw [hknown] at hd
      cases hd
    | none =>
      rw [hknown] at hd
      have hone := gathers_item h hin hknown
      obtain ⟨_, hext⟩ := hone.exists_extends
      exact hone.trans (ih hext.built (hin.of_extends h hext) hd)

end Pictures

/-! ## Lemmas: folders -/

section Folders

variable {c d : Catalog} (h : c.Built) {library : LibraryId}

include h

/-- A folder can be added at a place that is there; it gets the next number. -/
theorem adds_placeCall {parent : Option FolderId} {above : List String}
    (hp : c.Place library parent above) (name : String) :
    c.Adds (placeCall library parent name) (c.after (placeCall library parent name)) ∧
      (c.after (placeCall library parent name)).folder? ⟨c.folders.size⟩ =
        some ⟨name, library, parent, [], []⟩ := by
  rw [← h.links.folders.ranked.gapless.freshKey_eq_size]
  cases hp with
  | top hl =>
    obtain ⟨e, he⟩ : ∃ e, c.Adds (.folder library name) e := ⟨_, .folder name hl⟩
    obtain ⟨_, _, _, _, hnew⟩ := grown_of_adds_folder h hl he
    rw [placeCall, he.after_eq]
    exact ⟨he, hnew⟩
  | @inside id f _ hf hl _ =>
    obtain ⟨e, he⟩ : ∃ e, c.Adds (.subfolder id name) e := ⟨_, .subfolder name hf⟩
    obtain ⟨_, _, _, hnew⟩ := grown_of_adds_subfolder h hf he
    rw [placeCall, he.after_eq]
    exact ⟨he, hl ▸ hnew⟩

theorem extends_placeCall (library : LibraryId) (parent : Option FolderId) (name : String) :
    c.Extends [] (c.after (placeCall library parent name)) := by
  have hext := extends_after h (placeCall library parent name)
  cases parent <;> exact hext

theorem placed_placeFolders {parent : Option FolderId} {above : List String}
    (hp : c.Place library parent above) (ts : List Snapshot.Folder) :
    c.Extends [] (placeFolders (placeCall library parent) c ts).1 ∧
      (placeFolders (placeCall library parent) c ts).1.Placed library parent
        (placeFolders (placeCall library parent) c ts).2 ts := by
  induction ts generalizing c with
  | nil => exact ⟨.refl h, .nil⟩
  | cons t rest ih =>
    have hone := extends_placeCall h library parent t.name
    obtain ⟨_, hnew⟩ := adds_placeCall h hp t.name
    obtain ⟨hrest, hplaced⟩ := ih hone.built (hp.of_extends h hone)
    obtain ⟨g, hg, hgf⟩ := hrest.folder hnew
    exact ⟨hone.trans hrest, .cons ⟨g, hg, hgf⟩ hplaced⟩

/-- A folder that has been added at a place is a place of its own. -/
theorem place_of_placed {parent : Option FolderId} {above : List String}
    (hp : c.Place library parent above) {id : FolderId} {t : Snapshot.Folder}
    (ht : ∃ f, c.folder? id = some f ∧ f.outline = ⟨t.name, library, parent, [], []⟩) :
    c.Place library (some id) (above ++ [t.name]) := by
  obtain ⟨f, hf, houtline⟩ := ht
  have hname : f.name = t.name := congrArg Folder.name houtline
  have hlibrary : f.library = library := congrArg Folder.library houtline
  have hparent : f.parent = parent := congrArg Folder.parent houtline
  have habove : c.folderNamesAbove? f.parent = some above := by
    cases hp with
    | top => rw [hparent]; rfl
    | inside _ _ hn => rw [hparent]; exact hn
  exact .inside hf hlibrary (hname ▸ h.folderNames?_eq hf habove)

end Folders

mutual

theorem gathers_visitFolder {c d : Catalog} (h : c.Built) {library : LibraryId} {id : FolderId}
    {above : List String} {t : Snapshot.Folder}
    (hin : c.Place library (some id) (above ++ [t.name])) (hd : visitFolder c id t = .ok d) :
    c.Gathers ((t.visited above).map fun p => ⟨library, p.1, p.2⟩) d := by
  match t with
  | .mk name ts is =>
    have hin : c.Place library (some id) (above ++ [name]) := hin
    rw [visitFolder] at hd
    obtain ⟨e, he, hd⟩ := bind_eq_ok_iff.1 hd
    have hitems := gathers_visitItems h hin he
    obtain ⟨_, hext⟩ := hitems.exists_extends
    have hin := hin.of_extends h hext
    obtain ⟨hadded, hplaced⟩ := placed_placeFolders hext.built hin ts
    have hin := hin.of_extends hext.built hadded
    have hfolders := gathers_visitFolders hadded.built hin hplaced hd
    rw [Snapshot.Folder.visited, List.map_append, List.map_map]
    exact hitems.trans ((Gathers.of_extends hadded).trans hfolders)

theorem gathers_visitFolders {c d : Catalog} (h : c.Built) {library : LibraryId}
    {parent : Option FolderId} {above : List String} (hp : c.Place library parent above)
    {ids : List FolderId} {ts : List Snapshot.Folder}
    (hplaced : c.Placed library parent ids ts) (hd : visitFolders c ids ts = .ok d) :
    c.Gathers ((Snapshot.Folder.visitedAll above ts).map fun p => ⟨library, p.1, p.2⟩) d := by
  match ts with
  | [] =>
    cases hplaced
    rw [visitFolders] at hd
    · cases hd
      exact .refl h
    · simp
  | t :: ts =>
    cases hplaced with
    | @cons id _ ids _ ht hrest =>
      rw [visitFolders] at hd
      obtain ⟨e, he, hd⟩ := bind_eq_ok_iff.1 hd
      have hlater := gathers_visitFolders h hp hrest he
      obtain ⟨_, hext⟩ := hlater.exists_extends
      have hin := (place_of_placed h hp ht).of_extends h hext
      have hfirst := gathers_visitFolder hext.built hin hd
      rw [Snapshot.Folder.visitedAll, List.map_append]
      exact hlater.trans hfirst

end

end Catalog

end PictureSearch

import PictureSearch.Proofs.Catalog.Resolving
import PictureSearch.Proofs.Snapshot.Contents
import PictureSearch.Proofs.Snapshot.Traversal

/-!
# Growing catalogs

While folders and pictures are loaded the tags stay, every picture stays, and of the folders only
those are changed that something is put in.  `Grown` says so and counts what is new, so that two
steps make one:

    c.Grown changed folders items d → d.Grown changed' folders' items' e →
      (∀ id ∈ changed', id ∈ changed ∨ id ∈ folders) →
        c.Grown changed (folders ++ folders') (items ++ items') e               (Grown.trans)
-/

namespace PictureSearch

/-- The picture of a snapshot with the tags that its paths lead to. -/
def Snapshot.Item.withTags (item : Snapshot.Item) (tags : List TagId) : NewItem :=
  { name := item.name, width := item.width, height := item.height, rating := item.rating,
    nsfw := item.nsfw, comment := item.comment, size := item.size, tags }

/-- The picture of a snapshot as a record of a folder. -/
def Snapshot.Item.record (item : Snapshot.Item) (folder : FolderId) (tags : List TagId) :
    PictureSearch.Item :=
  { name := item.name, folder, width := item.width, height := item.height, rating := item.rating,
    nsfw := item.nsfw, comment := item.comment, size := item.size, tags }

namespace Catalog

/-- Every path of the picture leads to a tag. -/
def Resolves (c : Catalog) (item : Snapshot.Item) : Prop :=
  ∀ path ∈ item.tags, ∃ tag, c.tagAt? path = some tag

/-- The picture with the number `id` is the given one: it lies in the folder and has the tags that
are named, each once. -/
def ShowsItem (c : Catalog) (folder : FolderId) (id : ItemId) (item : Snapshot.Item) : Prop :=
  ∃ tags, c.item? id = some (item.record folder tags) ∧
    List.Forall₂ (fun tag path => c.tagPath? tag = some path) tags (keepFirst item.tags)

/-- All records of `c` are in `d`, of which only the folders `changed` have other lists; besides
there are the folders `newFolders` and the pictures `newItems`. -/
structure Grown (c : Catalog) (changed newFolders : List FolderId) (newItems : List ItemId)
    (d : Catalog) : Prop where
  built : d.Built
  tags : d.tags = c.tags
  tagIndex : d.tagIndex = c.tagIndex
  folder : ∀ {id f}, id ∉ changed → c.folder? id = some f → d.folder? id = some f
  item : ∀ {id i}, c.item? id = some i → d.item? id = some i
  folderKeys : d.folders.keys.Perm (c.folders.keys ++ newFolders.map (·.index))
  itemKeys : d.items.keys.Perm (c.items.keys ++ newItems.map (·.index))

namespace Grown

variable {c d e : Catalog} {changed changed' folders folders' : List FolderId}
  {items items' : List ItemId}

theorem refl (h : c.Built) (changed : List FolderId) : c.Grown changed [] [] c :=
  ⟨h, rfl, rfl, fun _ hf => hf, id, by simp, by simp⟩

theorem tagPath?_eq (h : c.Grown changed folders items d) : d.tagPath? = c.tagPath? := by
  have htag : d.tag? = c.tag? := funext fun id => by rw [tag?, h.tags, tag?]
  funext id
  rw [tagPath?, tagPath?, tagLine, tagLine, htag, h.tags]

theorem tagAt?_eq (h : c.Grown changed folders items d) : d.tagAt? = c.tagAt? := by
  have hchild : d.childTag? = c.childTag? := by
    funext parent name
    simp only [childTag?, tagsNamed, tag?, h.tags, h.tagIndex]
  have hdescend (names : List String) (at? : Option TagId) :
      d.descend? at? names = c.descend? at? names := by
    induction names generalizing at? with
    | nil => rfl
    | cons name rest ih => simp only [descend?, hchild, ih]
  funext path
  exact hdescend _ none

theorem resolves_iff (h : c.Grown changed folders items d) {item : Snapshot.Item} :
    d.Resolves item ↔ c.Resolves item := by
  rw [Resolves, Resolves, h.tagAt?_eq]

theorem nodup_folderKeys (h : c.Grown changed folders items d) :
    (c.folders.keys ++ folders.map (·.index)).Nodup := by
  refine h.folderKeys.nodup_iff.1 ?_
  rw [h.built.links.folders.ranked.gapless]
  exact List.nodup_range

theorem nodup_folders (h : c.Grown changed folders items d) : folders.Nodup :=
  (List.nodup_append.1 h.nodup_folderKeys).2.1.of_map _

/-- A folder that was there is not among those that have been added. -/
theorem not_mem_of_folder? (h : c.Grown changed folders items d) {id : FolderId} {f : Folder}
    (hf : c.folder? id = some f) : id ∉ folders := by
  intro hid
  have hkey : id.index ∈ c.folders.keys := SortedMap.mem_keys_iff.2 ⟨f, hf⟩
  exact (List.nodup_append.1 h.nodup_folderKeys).2.2 _ hkey _ (List.mem_map_of_mem hid) rfl

theorem trans (h : c.Grown changed folders items d) (h' : d.Grown changed' folders' items' e)
    (hchanged : ∀ id ∈ changed', id ∈ changed ∨ id ∈ folders) :
    c.Grown changed (folders ++ folders') (items ++ items') e where
  built := h'.built
  tags := h'.tags.trans h.tags
  tagIndex := h'.tagIndex.trans h.tagIndex
  folder := fun {id f} hid hf => by
    refine h'.folder (fun hid' => ?_) (h.folder hid hf)
    rcases hchanged id hid' with hin | hin
    · exact hid hin
    · exact h.not_mem_of_folder? hf hin
  item := fun hi => h'.item (h.item hi)
  folderKeys := by
    rw [List.map_append, ← List.append_assoc]
    exact h'.folderKeys.trans (h.folderKeys.append_right _)
  itemKeys := by
    rw [List.map_append, ← List.append_assoc]
    exact h'.itemKeys.trans (h.itemKeys.append_right _)

theorem of_perm (h : c.Grown changed folders items d) (hf : folders.Perm folders')
    (hi : items.Perm items') : c.Grown changed folders' items' d :=
  { h with
    folderKeys := h.folderKeys.trans ((hf.map _).append_left _)
    itemKeys := h.itemKeys.trans ((hi.map _).append_left _) }

theorem of_subset (h : c.Grown changed folders items d) (hs : changed ⊆ changed') :
    c.Grown changed' folders items d :=
  { h with folder := fun hid hf => h.folder (fun hin => hid (hs hin)) hf }

theorem showsItem (h : c.Grown changed folders items d) {folder : FolderId} {id : ItemId}
    {item : Snapshot.Item} (hi : c.ShowsItem folder id item) : d.ShowsItem folder id item := by
  obtain ⟨tags, hi, htags⟩ := hi
  rw [ShowsItem, h.tagPath?_eq]
  exact ⟨tags, h.item hi, htags⟩

end Grown

/-! ## Pictures -/

theorem mapM_eq_ok_iff {ε α β : Type} {f : α → Except ε β} {l : List α} {l' : List β} :
    l.mapM f = .ok l' ↔ List.Forall₂ (fun a b => f a = .ok b) l l' := by
  induction l generalizing l' with
  | nil => simp [pure, Except.pure, eq_comm]
  | cons a l ih =>
    simp only [List.mapM_cons, bind_eq_ok_iff, List.forall₂_cons_left_iff, ih]
    constructor
    · rintro ⟨b, hb, bs, hbs, ⟨⟩⟩
      exact ⟨b, bs, hb, hbs, rfl⟩
    · rintro ⟨b, bs, hb, hbs, rfl⟩
      exact ⟨b, hb, bs, hbs, rfl⟩

theorem exists_forall₂_iff {α β : Type} {r : α → β → Prop} {l : List α} :
    (∃ l', List.Forall₂ r l l') ↔ ∀ a ∈ l, ∃ b, r a b := by
  induction l with
  | nil => simp
  | cons a l ih =>
    rw [List.forall_mem_cons, ← ih]
    constructor
    · rintro ⟨l', h⟩
      obtain ⟨b, bs, hab, hl, _⟩ := List.forall₂_cons_left_iff.1 h
      exact ⟨⟨b, hab⟩, ⟨bs, hl⟩⟩
    · rintro ⟨⟨b, hab⟩, ⟨l', hl⟩⟩
      exact ⟨b :: l', .cons hab hl⟩

/-- Where a relation pairs elements one to one, it pairs those that are kept. -/
theorem forall₂_keepFirst {α β : Type} [DecidableEq α] [DecidableEq β] {r : α → β → Prop}
    (hr : Relator.BiUnique r) {l : List α} {l' : List β} (h : List.Forall₂ r l l') :
    List.Forall₂ r (keepFirst l) (keepFirst l') := by
  have run {l : List α} {l' : List β} (h : List.Forall₂ r l l') {kept : List α} {kept' : List β}
      (hkept : List.Forall₂ r kept kept') :
      List.Forall₂ r (l.foldl (fun kept a => if a ∈ kept then kept else kept ++ [a]) kept)
        (l'.foldl (fun kept a => if a ∈ kept then kept else kept ++ [a]) kept') := by
    induction h generalizing kept kept' with
    | nil => exact hkept
    | @cons a b l l' hab _ ih =>
      rw [List.foldl_cons, List.foldl_cons]
      refine ih ?_
      by_cases ha : a ∈ kept
      · rwa [if_pos ha, if_pos ((List.rel_mem hr hab hkept).1 ha)]
      · rw [if_neg ha, if_neg fun hb => ha ((List.rel_mem hr hab hkept).2 hb)]
        exact List.rel_append hkept (.cons hab .nil)
  exact run h .nil

section Items

variable {c d : Catalog} {folder : FolderId} {f : Folder}

theorem resolveTags_eq_ok_iff {item : Snapshot.Item} {tags : List TagId} :
    c.resolveTags item = .ok tags ↔
      List.Forall₂ (fun path tag => c.tagAt? path = some tag) item.tags tags := by
  rw [resolveTags, mapM_eq_ok_iff]
  refine iff_of_eq (congrArg (List.Forall₂ · item.tags tags) ?_)
  funext path tag
  cases c.tagAt? path <;> simp

theorem exists_resolveTags_iff {item : Snapshot.Item} :
    (∃ tags, c.resolveTags item = .ok tags) ↔ c.Resolves item := by
  simp only [resolveTags_eq_ok_iff]
  exact exists_forall₂_iff

theorem biUnique_tagPath? (h : c.Built) :
    Relator.BiUnique fun tag path => c.tagPath? tag = some path := by
  constructor
  · intro tag path tag' ht ht'
    rw [← h.tagAt?_eq_some_iff] at ht ht'
    rw [ht] at ht'
    exact Option.some.inj ht'
  · intro tag path path' hp hp'
    rw [hp] at hp'
    exact Option.some.inj hp'

theorem index_ne_of_not_mem {id changed : FolderId} (h : id ∉ [changed]) :
    id.index ≠ changed.index :=
  fun heq => h (List.mem_singleton.2 (folderIndex_injective heq))

/-- A picture that is added gets the next number and goes to the end of its folder. -/
theorem grown_of_adds_item (h : c.Built) (hf : c.folder? folder = some f) {item : NewItem}
    (ha : c.Adds (.item folder item) d) :
    c.Grown [folder] [] [⟨c.items.freshKey⟩] d ∧ d.libraries = c.libraries ∧
      d.folder? folder = some { f with items := f.items ++ [⟨c.items.freshKey⟩] } ∧
      d.item? ⟨c.items.freshKey⟩ = some
        { name := item.name, folder, width := item.width, height := item.height,
          rating := item.rating, nsfw := item.nsfw, comment := item.comment,
          size := item.size, tags := keepFirst item.tags } := by
  have hd := h.of_adds ha
  have hg := h.links.items.gapless
  cases ha with
  | item =>
    refine ⟨⟨hd, rfl, rfl, fun {id g} hid hg => ?_, fun hi => ?_, ?_, ?_⟩, rfl, ?_, ?_⟩
    · exact (SortedMap.find?_update_of_ne _ _ (index_ne_of_not_mem hid)).trans hg
    · exact hg.find?_insert_of_find? hi _
    · rw [SortedMap.keys_update]
      simp
    · rw [hg.keys_insert_freshKey]
      exact .refl _
    · exact (SortedMap.find?_update_self ..).trans (congrArg _ hf)
    · exact SortedMap.find?_insert_self ..

theorem addSnapshotItem_eq_ok_iff {item : Snapshot.Item} :
    addSnapshotItem folder c item = .ok d ↔
      ∃ tags id, c.resolveTags item = .ok tags ∧
        c.addItem folder (item.withTags tags) = .ok (d, id) := by
  rw [addSnapshotItem, bind_eq_ok_iff]
  refine exists_congr fun tags => ?_
  rw [exists_and_left]
  refine and_congr_right fun _ => ?_
  constructor
  · intro hd
    obtain ⟨⟨e, id⟩, he, ⟨⟩⟩ := bind_eq_ok_iff.1 hd
    exact ⟨id, mapError_eq_ok_iff.1 he⟩
  · rintro ⟨id, hd⟩
    exact bind_eq_ok_iff.2 ⟨(d, id), mapError_eq_ok_iff.2 hd, rfl⟩

/-- What loading a picture does, where it goes well. -/
theorem addSnapshotItem_ok (h : c.Built) (hf : c.folder? folder = some f) {item : Snapshot.Item}
    (hd : addSnapshotItem folder c item = .ok d) :
    c.Grown [folder] [] [⟨c.items.freshKey⟩] d ∧ d.libraries = c.libraries ∧
      d.folder? folder = some { f with items := f.items ++ [⟨c.items.freshKey⟩] } ∧
      d.ShowsItem folder ⟨c.items.freshKey⟩ item := by
  obtain ⟨tags, id, htags, hadd⟩ := addSnapshotItem_eq_ok_iff.1 hd
  obtain ⟨hadds, rfl⟩ := addItem_eq_ok_iff.1 hadd
  obtain ⟨hgrown, hlibraries, hfolder, hitem⟩ := grown_of_adds_item h hf hadds
  refine ⟨hgrown, hlibraries, hfolder, _, hitem, ?_⟩
  refine forall₂_keepFirst (biUnique_tagPath? hgrown.built) ?_
  refine ((resolveTags_eq_ok_iff.1 htags).imp fun path tag htag => ?_).flip
  show d.tagPath? tag = some path
  rwa [hgrown.tagPath?_eq, ← h.tagAt?_eq_some_iff]

/-- A picture can be loaded where its paths lead to tags. -/
theorem exists_addSnapshotItem_iff (h : c.Built) (hf : c.folder? folder = some f)
    (item : Snapshot.Item) :
    (∃ d, addSnapshotItem folder c item = .ok d) ↔ c.Resolves item := by
  simp only [← exists_resolveTags_iff, addSnapshotItem_eq_ok_iff]
  constructor
  · rintro ⟨d, tags, id, htags, _⟩
    exact ⟨tags, htags⟩
  · rintro ⟨tags, htags⟩
    have hexist : ∀ tag ∈ tags, ∃ t, c.tag? tag = some t := by
      have hpaths := (resolveTags_eq_ok_iff.1 htags).flip
      intro tag htag
      obtain ⟨path, hpath⟩ := exists_forall₂_iff.1 ⟨_, hpaths⟩ tag htag
      exact h.exists_tag?_of_tagPath? (h.tagAt?_eq_some_iff.1 hpath)
    exact ⟨_, tags, _, htags, addItem_eq_ok_iff.2 ⟨.item hf hexist, rfl⟩⟩

/-- What loading the pictures of a folder does. -/
theorem addSnapshotItems_ok (h : c.Built) (hf : c.folder? folder = some f)
    {items : List Snapshot.Item} (hd : items.foldlM (addSnapshotItem folder) c = .ok d) :
    ∃ ids, c.Grown [folder] [] ids d ∧ d.libraries = c.libraries ∧
      d.folder? folder = some { f with items := f.items ++ ids } ∧
      List.Forall₂ (d.ShowsItem folder) ids items := by
  induction items generalizing c f with
  | nil =>
    cases hd
    exact ⟨[], .refl h _, rfl, by simpa using hf, .nil⟩
  | cons item rest ih =>
    rw [List.foldlM_cons] at hd
    obtain ⟨e, he, hd⟩ := bind_eq_ok_iff.1 hd
    obtain ⟨hone, hlibraries, hfolder, hitem⟩ := addSnapshotItem_ok h hf he
    obtain ⟨ids, hrest, hlibraries', hfolder', hitems⟩ := ih hone.built hfolder hd
    refine ⟨⟨c.items.freshKey⟩ :: ids, hone.trans hrest fun _ => Or.inl,
      hlibraries'.trans hlibraries, ?_, .cons (hrest.showsItem hitem) hitems⟩
    rw [hfolder', List.append_assoc, List.singleton_append]

theorem exists_addSnapshotItems_iff (h : c.Built) (hf : c.folder? folder = some f)
    (items : List Snapshot.Item) :
    (∃ d, items.foldlM (addSnapshotItem folder) c = .ok d) ↔ ∀ item ∈ items, c.Resolves item := by
  induction items generalizing c f with
  | nil => simp [pure, Except.pure]
  | cons item rest ih =>
    rw [List.forall_mem_cons, List.foldlM_cons]
    refine exists_bind_eq_ok_iff (exists_addSnapshotItem_iff h hf item) fun e he => ?_
    obtain ⟨hgrown, _, hfolder, _⟩ := addSnapshotItem_ok h hf he
    exact (ih hgrown.built hfolder).trans (forall₂_congr fun i _ => hgrown.resolves_iff)

end Items

/-! ## Folders -/

section Folders

variable {c d : Catalog}

/-- A folder that is added inside another gets the next number and goes to the end of its list. -/
theorem grown_of_adds_subfolder (h : c.Built) {parent : FolderId} {p : Folder}
    (hp : c.folder? parent = some p) {name : String} (ha : c.Adds (.subfolder parent name) d) :
    c.Grown [parent] [⟨c.folders.freshKey⟩] [] d ∧ d.libraries = c.libraries ∧
      d.folder? parent = some { p with children := p.children ++ [⟨c.folders.freshKey⟩] } ∧
      d.folder? ⟨c.folders.freshKey⟩ = some ⟨name, p.library, some parent, [], []⟩ := by
  have hd := h.of_adds ha
  have hg := h.links.folders.ranked.gapless
  have hlt := hg.lt_size_of_find? hp
  rw [← hg.freshKey_eq_size] at hlt
  cases ha with
  | @subfolder _ p' name hp' =>
    rw [hp] at hp'
    cases hp'
    refine ⟨⟨hd, rfl, rfl, fun {id g} hid hf => ?_, fun hi => hi, ?_, ?_⟩, rfl, ?_, ?_⟩
    · exact (SortedMap.find?_update_of_ne _ _ (index_ne_of_not_mem hid)).trans
        (hg.find?_insert_of_find? hf _)
    · rw [SortedMap.keys_update, hg.keys_insert_freshKey]
      exact .refl _
    · simp
    · exact (SortedMap.find?_update_self ..).trans
        (congrArg _ (hg.find?_insert_of_find? hp _))
    · exact (SortedMap.find?_update_of_ne _ _ (Nat.ne_of_gt hlt)).trans
        (SortedMap.find?_insert_self ..)

/-- A folder that is added at the top gets the next number and is listed last in its library. -/
theorem grown_of_adds_folder (h : c.Built) {library : LibraryId} {l : Library}
    (hl : c.library? library = some l) {name : String} (ha : c.Adds (.folder library name) d) :
    c.Grown [] [⟨c.folders.freshKey⟩] [] d ∧ d.libraries.size = c.libraries.size ∧
      (∀ id, id ≠ library → d.library? id = c.library? id) ∧
      d.library? library = some { l with folders := l.folders ++ [⟨c.folders.freshKey⟩] } ∧
      d.folder? ⟨c.folders.freshKey⟩ = some ⟨name, library, none, [], []⟩ := by
  have hd := h.of_adds ha
  have hg := h.links.folders.ranked.gapless
  cases ha with
  | folder =>
    refine ⟨⟨hd, rfl, rfl, fun _ hf => ?_, fun hi => hi, ?_, ?_⟩,
      SortedMap.size_update .., fun id hid => ?_, ?_, ?_⟩
    · exact hg.find?_insert_of_find? hf _
    · rw [hg.keys_insert_freshKey]
      exact .refl _
    · simp
    · exact SortedMap.find?_update_of_ne _ _ fun heq => hid (libraryIndex_injective heq)
    · exact (SortedMap.find?_update_self ..).trans (congrArg _ hl)
    · exact SortedMap.find?_insert_self ..

end Folders

end Catalog

end PictureSearch

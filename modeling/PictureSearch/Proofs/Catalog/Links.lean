import PictureSearch.Proofs.Catalog.Built
import PictureSearch.Proofs.Catalog.TagNames

/-!
# The links of a catalog that was built

The links between libraries and folders, between folders, pictures and tags, and between tags are
kept apart, since no call touches all of them.  A call that adds a record keeps each of them, so
that they hold in every catalog that was built:

    c.Built → c.Links                                                          (Built.links)
-/

namespace PictureSearch

/-! ## Where records are at home -/

/-- The number of the parent, whose children hold the folder. -/
def Folder.above (f : Folder) : Option Nat := f.parent.map (·.index)

/-- The number of the library that lists the folder: only a folder at the top is listed there. -/
def Folder.topOf (f : Folder) : Option Nat := if f.parent = none then some f.library.index else none

/-- The number of the parent, whose children hold the tag. -/
def Tag.above (t : Tag) : Option Nat := t.parent.map (·.index)

/-! ## Numbers tell ids apart -/

theorem libraryIndex_injective : Function.Injective LibraryId.index :=
  fun _ _ h => congrArg LibraryId.mk h

theorem folderIndex_injective : Function.Injective FolderId.index :=
  fun _ _ h => congrArg FolderId.mk h

theorem itemIndex_injective : Function.Injective ItemId.index := fun _ _ h => congrArg ItemId.mk h

theorem tagIndex_injective : Function.Injective TagId.index := fun _ _ h => congrArg TagId.mk h

/-! ## Links -/

structure FolderLinks (libraries : SortedMap Nat Library) (folders : SortedMap Nat Folder) :
    Prop where
  gapless : libraries.Gapless
  ranked : folders.Ranked Folder.above (·.library)
  library : folders.Refers (fun f => [f.library.index]) libraries
  tops : libraries.Lists (fun l => l.folders.map (·.index)) folders Folder.topOf
  children : folders.Lists (fun f => f.children.map (·.index)) folders Folder.above

structure ItemLinks (folders : SortedMap Nat Folder) (items : SortedMap Nat Item)
    (tags : SortedMap Nat Tag) : Prop where
  gapless : items.Gapless
  folder : items.Refers (fun i => [i.folder.index]) folders
  listed : folders.Lists (fun f => f.items.map (·.index)) items fun i => some i.folder.index
  tags : items.Refers (fun i => i.tags.map (·.index)) tags
  nodup : items.All fun i => i.tags.Nodup

/-- Names are usable, and tags at one place have different names. -/
structure NamesApart (tags : SortedMap Nat Tag) : Prop where
  usable : tags.All fun t => t.name ≠ "" ∧ '/' ∉ t.name.toList
  apart : ∀ {j k : Nat} {s t : Tag}, tags.find? j = some s → tags.find? k = some t →
    s.parent = t.parent → s.name = t.name → j = k

/-- No tag of the name lies directly under the parent, or at the root. -/
def NameFree (tags : SortedMap Nat Tag) (parent : Option TagId) (name : String) : Prop :=
  ∀ ⦃k : Nat⦄ ⦃t : Tag⦄, tags.find? k = some t → t.name = name → t.parent ≠ parent

structure TagLinks (tags : SortedMap Nat Tag) (index : TagIndex) : Prop where
  ranked : tags.Ranked Tag.above fun _ => ()
  names : NamesApart tags
  children : tags.Lists (fun t => t.children.map (·.index)) tags Tag.above
  index : index = .ofTags tags

structure Catalog.Links (c : Catalog) : Prop where
  folders : FolderLinks c.libraries c.folders
  items : ItemLinks c.folders c.items c.tags
  tags : TagLinks c.tags c.tagIndex

/-! ## Libraries and folders -/

namespace FolderLinks

variable {libraries : SortedMap Nat Library} {folders : SortedMap Nat Folder}

theorem empty : FolderLinks .empty .empty := ⟨rfl, .empty, .empty, .empty, .empty⟩

theorem insert_library (h : FolderLinks libraries folders) {l : Library} (hl : l.folders = []) :
    FolderLinks (libraries.insert libraries.freshKey l) folders where
  gapless := h.gapless.insert_freshKey l
  ranked := h.ranked
  library := h.library.insert_holder _ _
  tops := by
    refine h.tops.insert_holder h.library (fun {f k} hf => ?_) (by rw [hl]; rfl)
    unfold Folder.topOf at hf
    split at hf
    · exact List.mem_singleton.2 (Option.some.inj hf).symm
    · cases hf
  children := h.children

/-- A new folder holds no children yet. -/
theorem children_insert (h : FolderLinks libraries folders) {f : Folder} (hf : f.children = []) :
    (folders.insert folders.freshKey f).Lists (fun f => f.children.map (·.index)) folders
      Folder.above :=
  h.children.insert_holder h.ranked.refers Option.mem_toList.2 (by rw [hf]; rfl)

theorem insert_top (h : FolderLinks libraries folders) (name : String) {library : LibraryId}
    {l : Library} (hl : libraries.find? library.index = some l) :
    FolderLinks
      (libraries.update library.index fun l =>
        { l with folders := l.folders ++ [⟨folders.freshKey⟩] })
      (folders.insert folders.freshKey ⟨name, library, none, [], []⟩) where
  gapless := h.gapless.update _ _
  ranked := h.ranked.insert nofun
  library := by
    refine (h.library.insert_member fun n hn => ?_).update_holder _ _
    rw [List.mem_singleton.1 hn]
    exact ⟨l, hl⟩
  tops := h.tops.insert_member h.ranked.gapless rfl fun l => List.map_append
  children := (h.children_insert rfl).insert_homeless h.ranked.gapless rfl

theorem insert_child (h : FolderLinks libraries folders) (name : String) {parent : FolderId}
    {p : Folder} (hp : folders.find? parent.index = some p) :
    FolderLinks libraries
      ((folders.insert folders.freshKey ⟨name, p.library, some parent, [], []⟩).update parent.index
        fun f => { f with children := f.children ++ [⟨folders.freshKey⟩] }) where
  gapless := h.gapless
  ranked := by
    refine (h.ranked.insert ?_).update _ (fun _ => rfl) fun _ => rfl
    rintro _ ⟨⟩
    exact ⟨p, hp, rfl⟩
  library := by
    refine (h.library.insert_member fun n hn => ?_).update_member _ fun _ => rfl
    exact h.library hp n hn
  tops := (h.tops.insert_homeless h.ranked.gapless rfl).update_member _ fun _ => rfl
  children := by
    refine SortedMap.Lists.update_member ?_ _ fun _ => rfl
    exact (h.children_insert rfl).insert_member h.ranked.gapless rfl fun f => List.map_append

/-- A change of the pictures of a folder. -/
theorem update_folder (h : FolderLinks libraries folders) (k : Nat) {fill : Folder → Folder}
    (houtline : ∀ g, (fill g).outline = g.outline)
    (hchildren : ∀ g, (fill g).children = g.children) :
    FolderLinks libraries (folders.update k fill) := by
  have outline g := Folder.outline_eq_iff.1 (houtline g)
  have keeps g : (fill g).above = g.above := by rw [Folder.above, (outline g).2.2]; rfl
  refine ⟨h.gapless, h.ranked.update k keeps fun g => (outline g).2.1,
    h.library.update_member k fun g => ?_, h.tops.update_member k fun g => ?_,
    (h.children.update_holder k fun g => ?_).update_member k keeps⟩
  · rw [(outline g).2.1]
  · rw [Folder.topOf, (outline g).2.2, (outline g).2.1]
    rfl
  · rw [hchildren]

end FolderLinks

/-! ## Pictures -/

theorem mem_foldl_keep {α : Type} [DecidableEq α] {l kept : List α} {a : α} :
    a ∈ l.foldl (fun kept a => if a ∈ kept then kept else kept ++ [a]) kept ↔ a ∈ kept ∨ a ∈ l := by
  induction l generalizing kept with
  | nil => simp
  | cons b rest ih =>
    rw [List.foldl_cons, ih, List.mem_cons]
    split
    · next hb =>
      constructor
      · rintro (ha | ha)
        · exact Or.inl ha
        · exact Or.inr (Or.inr ha)
      · rintro (ha | rfl | ha)
        · exact Or.inl ha
        · exact Or.inl hb
        · exact Or.inr ha
    · rw [List.mem_append, List.mem_singleton, or_assoc]

theorem mem_keepFirst_iff {α : Type} [DecidableEq α] {l : List α} {a : α} :
    a ∈ keepFirst l ↔ a ∈ l := by
  rw [keepFirst, mem_foldl_keep]
  simp

theorem nodup_foldl_keep {α : Type} [DecidableEq α] {l kept : List α} (h : kept.Nodup) :
    (l.foldl (fun kept a => if a ∈ kept then kept else kept ++ [a]) kept).Nodup := by
  induction l generalizing kept with
  | nil => exact h
  | cons b rest ih =>
    rw [List.foldl_cons]
    split
    · exact ih h
    · next hb =>
      refine ih (List.nodup_append.2 ⟨h, List.nodup_singleton b, ?_⟩)
      rintro a ha _ hm rfl
      exact hb (List.mem_singleton.1 hm ▸ ha)

theorem nodup_keepFirst {α : Type} [DecidableEq α] (l : List α) : (keepFirst l).Nodup :=
  nodup_foldl_keep .nil

namespace ItemLinks

variable {folders : SortedMap Nat Folder} {items : SortedMap Nat Item} {tags : SortedMap Nat Tag}

theorem empty : ItemLinks .empty .empty .empty := ⟨rfl, .empty, .empty, .empty, .empty⟩

theorem insert_folder (h : ItemLinks folders items tags) {f : Folder} (hf : f.items = []) :
    ItemLinks (folders.insert folders.freshKey f) items tags where
  gapless := h.gapless
  folder := h.folder.insert_holder _ _
  listed := by
    refine h.listed.insert_holder h.folder (fun {i k} hi => ?_) (by rw [hf]; rfl)
    exact List.mem_singleton.2 (Option.some.inj hi).symm
  tags := h.tags
  nodup := h.nodup

/-- A change of the children of a folder. -/
theorem update_folder (h : ItemLinks folders items tags) (k : Nat) {fill : Folder → Folder}
    (hitems : ∀ f, (fill f).items = f.items) :
    ItemLinks (folders.update k fill) items tags where
  gapless := h.gapless
  folder := h.folder.update_holder _ _
  listed := h.listed.update_holder k fun f => by rw [hitems]
  tags := h.tags
  nodup := h.nodup

theorem insert_tag (h : ItemLinks folders items tags) (k : Nat) (t : Tag) :
    ItemLinks folders items (tags.insert k t) :=
  { h with tags := h.tags.insert_holder k t }

theorem update_tag (h : ItemLinks folders items tags) (k : Nat) (fill : Tag → Tag) :
    ItemLinks folders items (tags.update k fill) :=
  { h with tags := h.tags.update_holder k fill }

theorem insert_item (h : ItemLinks folders items tags) {i : Item} {folder : FolderId} {f : Folder}
    (hi : i.folder = folder) (hf : folders.find? folder.index = some f)
    (ht : ∀ t ∈ i.tags, ∃ tag, tags.find? t.index = some tag) (hnodup : i.tags.Nodup) :
    ItemLinks
      (folders.update folder.index fun f => { f with items := f.items ++ [⟨items.freshKey⟩] })
      (items.insert items.freshKey i) tags where
  gapless := h.gapless.insert_freshKey i
  folder := by
    refine (h.folder.insert_member fun n hn => ?_).update_holder _ _
    rw [List.mem_singleton.1 hn, hi]
    exact ⟨f, hf⟩
  listed := h.listed.insert_member h.gapless (by rw [hi]) fun f => List.map_append
  tags := by
    refine h.tags.insert_member fun n hn => ?_
    obtain ⟨t, hm, rfl⟩ := List.mem_map.1 hn
    exact ht t hm
  nodup := h.nodup.insert _ hnodup

end ItemLinks

/-! ## Tags -/

namespace NamesApart

variable {tags : SortedMap Nat Tag}

theorem insert (h : NamesApart tags) {t : Tag} (hname : t.name ≠ "" ∧ '/' ∉ t.name.toList)
    (hfree : NameFree tags t.parent t.name) :
    NamesApart (tags.insert tags.freshKey t) where
  usable := h.usable.insert _ hname
  apart := fun {j k s s'} hs hs' hp hn => by
    rw [SortedMap.find?_insert] at hs hs'
    split at hs
    · next hj =>
      cases hs
      split at hs'
      · next hk => rw [hj, hk]
      · exact absurd hp.symm (hfree hs' hn.symm)
    · split at hs'
      · cases hs'
        exact absurd hp (hfree hs hn)
      · exact h.apart hs hs' hp hn

/-- A change of the children of a tag. -/
theorem update (h : NamesApart tags) (k : Nat) {fill : Tag → Tag}
    (hname : ∀ t, (fill t).name = t.name) (hparent : ∀ t, (fill t).parent = t.parent) :
    NamesApart (tags.update k fill) := by
  have old {n : Nat} {t : Tag} (ht : (tags.update k fill).find? n = some t) :
      ∃ s, tags.find? n = some s ∧ s.name = t.name ∧ s.parent = t.parent := by
    rw [SortedMap.find?_update] at ht
    split at ht
    · obtain ⟨s, hs, rfl⟩ := Option.map_eq_some_iff.1 ht
      exact ⟨s, hs, (hname s).symm, (hparent s).symm⟩
    · exact ⟨t, ht, rfl, rfl⟩
  refine ⟨h.usable.update k fun t ht => by rwa [hname], fun {m n t u} ht hu hp hn => ?_⟩
  obtain ⟨s, hs, hsn, hsp⟩ := old ht
  obtain ⟨s', hs', hsn', hsp'⟩ := old hu
  exact h.apart hs hs' (hsp.trans (hp.trans hsp'.symm)) (hsn.trans (hn.trans hsn'.symm))

end NamesApart

namespace TagLinks

variable {tags : SortedMap Nat Tag} {index : TagIndex}

theorem empty : TagLinks .empty .empty := ⟨.empty, ⟨.empty, nofun⟩, .empty, rfl⟩

theorem children_insert (h : TagLinks tags index) {t : Tag} (ht : t.children = []) :
    (tags.insert tags.freshKey t).Lists (fun t => t.children.map (·.index)) tags Tag.above :=
  h.children.insert_holder h.ranked.refers Option.mem_toList.2 (by rw [ht]; rfl)

theorem insert_root (h : TagLinks tags index) {name : String}
    (hname : name ≠ "" ∧ '/' ∉ name.toList) (hfree : NameFree tags none name) :
    TagLinks (tags.insert tags.freshKey ⟨name, none, []⟩) (index.add name ⟨tags.freshKey⟩) where
  ranked := h.ranked.insert nofun
  names := h.names.insert hname hfree
  children := (h.children_insert rfl).insert_homeless h.ranked.gapless rfl
  index := by rw [h.index, TagIndex.ofTags_insert_freshKey h.ranked.gapless]

theorem insert_child (h : TagLinks tags index) {name : String} {parent : TagId} {p : Tag}
    (hp : tags.find? parent.index = some p) (hname : name ≠ "" ∧ '/' ∉ name.toList)
    (hfree : NameFree tags (some parent) name) :
    TagLinks
      ((tags.insert tags.freshKey ⟨name, some parent, []⟩).update parent.index fun t =>
        { t with children := t.children ++ [⟨tags.freshKey⟩] })
      (index.add name ⟨tags.freshKey⟩) where
  ranked := by
    refine (h.ranked.insert ?_).update _ (fun _ => rfl) fun _ => rfl
    rintro _ ⟨⟩
    exact ⟨p, hp, rfl⟩
  names := (h.names.insert hname hfree).update _ (fun _ => rfl) fun _ => rfl
  children := by
    refine SortedMap.Lists.update_member ?_ _ fun _ => rfl
    exact (h.children_insert rfl).insert_member h.ranked.gapless rfl fun t => List.map_append
  index := by
    rw [h.index, TagIndex.ofTags_update, TagIndex.ofTags_insert_freshKey h.ranked.gapless]
    exact fun _ => rfl

end TagLinks

/-! ## Every catalog that was built -/

namespace Catalog

variable {c : Catalog}

/-- A name is free where no tag of it is found. -/
theorem childTag?_eq_none_iff (h : c.tagIndex = .ofTags c.tags) {parent : Option TagId}
    {name : String} : c.childTag? parent name = none ↔ NameFree c.tags parent name := by
  simp only [childTag?, tagsNamed, h, TagIndex.named_ofTags, List.find?_eq_none, List.mem_map,
    SortedMap.mem_keysWith_iff]
  constructor
  · intro hn k t ht hname hp
    refine hn ⟨k⟩ ⟨k, ⟨t, ht, by simpa using hname⟩, rfl⟩ ?_
    show (c.tags.find? k).any _ = true
    rw [ht]
    simpa using hp
  · rintro hn _ ⟨k, ⟨t, ht, hname⟩, rfl⟩ hany
    change (c.tags.find? k).any _ = true at hany
    rw [ht] at hany
    exact hn ht (by simpa using hname) (by simpa using hany)

theorem checkTag_eq_ok_iff {name : String} {parent : Option TagId} :
    c.checkTag name parent = .ok () ↔ (name ≠ "" ∧ '/' ∉ name.toList) ∧
      (∀ p ∈ parent, ∃ t, c.tag? p = some t) ∧ c.childTag? parent name = none := by
  have hname : (name.isEmpty || name.toList.contains '/') = true ↔
      ¬(name ≠ "" ∧ '/' ∉ name.toList) := by
    rw [Bool.or_eq_true, String.isEmpty_iff, List.contains_iff_mem]
    tauto
  unfold checkTag
  by_cases hn : name ≠ "" ∧ '/' ∉ name.toList
  · rw [if_neg (fun h => hname.1 h hn)]
    cases parent with
    | none => cases hc : c.childTag? none name <;> simp [hn]
    | some p =>
      cases ht : c.tag? p <;> cases hc : c.childTag? (some p) name <;> simp [hn, ht, hc]
  · rw [if_pos (hname.2 hn)]
    simp [hn]

theorem Links.of_adds {d : Catalog} {call : BuildCall} (h : c.Links) (ha : c.Adds call d) :
    d.Links := by
  obtain ⟨hfolders, hitems, htags⟩ := h
  cases ha with
  | library => exact ⟨hfolders.insert_library rfl, hitems, htags⟩
  | folder name hl =>
    exact ⟨hfolders.insert_top name hl, hitems.insert_folder rfl, htags⟩
  | subfolder name hp =>
    exact ⟨hfolders.insert_child name hp,
      (hitems.insert_folder rfl).update_folder _ fun _ => rfl, htags⟩
  | rootTag hcheck =>
    obtain ⟨hname, _, hfree⟩ := checkTag_eq_ok_iff.1 hcheck
    have hfree := (childTag?_eq_none_iff htags.index).1 hfree
    exact ⟨hfolders, hitems.insert_tag _ _, htags.insert_root hname hfree⟩
  | childTag hcheck =>
    obtain ⟨hname, hparent, hfree⟩ := checkTag_eq_ok_iff.1 hcheck
    obtain ⟨p, hp⟩ := hparent _ rfl
    have hfree := (childTag?_eq_none_iff htags.index).1 hfree
    exact ⟨hfolders, (hitems.insert_tag _ _).update_tag _ _,
      htags.insert_child hp hname hfree⟩
  | item hf ht =>
    refine ⟨hfolders.update_folder _ (fun _ => rfl) fun _ => rfl, ?_, htags⟩
    refine hitems.insert_item rfl hf (fun t hm => ?_) ?_
    · exact ht t (mem_keepFirst_iff.1 hm)
    · exact nodup_keepFirst _

theorem Built.links (h : c.Built) : c.Links := by
  induction h with
  | empty => exact ⟨.empty, .empty, .empty⟩
  | @after c call _ ih =>
    rcases c.after_cases call with heq | ha
    · rwa [heq]
    · exact ih.of_adds ha

end Catalog

end PictureSearch

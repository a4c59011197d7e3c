import PictureSearch.Payload.Catalog
import PictureSearch.Proofs.Catalog.Links
import PictureSearch.Proofs.Payload.Coder

/-!
# Catalogs are read back from their payload

A payload counts records and the bytes of texts in words of 64 bits.  A catalog whose records are
linked as calls link them, and whose records and texts can be counted so, is read back from its
payload as it was, its tag index included, whatever bytes stand behind it:

    c.Links → c.FitsWords → ofPayload (c.toPayload ++ rest) = .ok c        (ofPayload_toPayload)
-/

namespace PictureSearch

/-! ## What words can count -/

/-- A word counts the bytes of the text. -/
def Text.FitsWord (s : String) : Prop := s.utf8ByteSize < UInt64.size

instance : DecidablePred Text.FitsWord := fun s =>
  inferInstanceAs (Decidable (s.utf8ByteSize < UInt64.size))

def Library.TextsFit (l : Library) : Prop :=
  Text.FitsWord l.displayName ∧ Text.FitsWord l.machineName ∧ Text.FitsWord l.absolutePath

def Folder.TextsFit (f : Folder) : Prop := Text.FitsWord f.name

def Item.TextsFit (i : Item) : Prop := Text.FitsWord i.name ∧ ∀ s ∈ i.comment, Text.FitsWord s

def Tag.TextsFit (t : Tag) : Prop := Text.FitsWord t.name

/-- Words count the bytes of all texts. -/
structure Catalog.TextsFit (c : Catalog) : Prop where
  libraries : c.libraries.All Library.TextsFit
  folders : c.folders.All Folder.TextsFit
  items : c.items.All Item.TextsFit
  tags : c.tags.All Tag.TextsFit

/-- Words count the records of each kind and the bytes of all texts. -/
structure Catalog.FitsWords (c : Catalog) : Prop where
  libraries : c.libraries.size < UInt64.size
  folders : c.folders.size < UInt64.size
  items : c.items.size < UInt64.size
  tags : c.tags.size < UInt64.size
  texts : c.TextsFit

namespace Payload

open Coder

/-- A word counts the numbers, and each is a word. -/
def NumbersFit (numbers : List Nat) : Prop :=
  numbers.length < UInt64.size ∧ ∀ n ∈ numbers, n < UInt64.size

def LibraryFits (l : Library) : Prop := l.TextsFit ∧ NumbersFit (l.folders.map (·.index))

def FolderFits (f : Folder) : Prop :=
  f.TextsFit ∧ f.library.index < UInt64.size ∧ (∀ p ∈ f.parent, p.index < UInt64.size) ∧
    NumbersFit (f.children.map (·.index)) ∧ NumbersFit (f.items.map (·.index))

def ItemFits (i : Item) : Prop :=
  i.TextsFit ∧ i.folder.index < UInt64.size ∧ NumbersFit (i.tags.map (·.index))

def TagFits (t : Tag) : Prop :=
  t.TextsFit ∧ (∀ p ∈ t.parent, p.index < UInt64.size) ∧ NumbersFit (t.children.map (·.index))

/-- A word counts the records, each number is a word, and each record fits. -/
def RecordsFit {α : Type} (fits : α → Prop) (m : SortedMap Nat α) : Prop :=
  m.size < UInt64.size ∧ ∀ e ∈ m.entries, e.1 < UInt64.size ∧ fits e.2

/-- All records fit, and the tag index, which is not written, is that of the tags. -/
structure CatalogFits (c : Catalog) : Prop where
  libraries : RecordsFit LibraryFits c.libraries
  folders : RecordsFit FolderFits c.folders
  items : RecordsFit ItemFits c.items
  tags : RecordsFit TagFits c.tags
  index : c.tagIndex = .ofTags c.tags

/-! ## Numbers -/

theorem lossless_libraryId : libraryId.Lossless (·.index < UInt64.size) :=
  lossless_map lossless_word64 (fun _ h => h) fun _ _ => rfl

theorem lossless_folderId : folderId.Lossless (·.index < UInt64.size) :=
  lossless_map lossless_word64 (fun _ h => h) fun _ _ => rfl

theorem lossless_itemId : itemId.Lossless (·.index < UInt64.size) :=
  lossless_map lossless_word64 (fun _ h => h) fun _ _ => rfl

theorem lossless_tagId : tagId.Lossless (·.index < UInt64.size) :=
  lossless_map lossless_word64 (fun _ h => h) fun _ _ => rfl

theorem lossless_ids {ι : Type} {c : Coder ι} {number : ι → Nat}
    (h : c.Lossless (number · < UInt64.size)) :
    c.list.Lossless fun ids => NumbersFit (ids.map number) := by
  refine (lossless_list h).imp fun ids hids => ?_
  obtain ⟨hlength, hall⟩ := hids
  rw [List.length_map] at hlength
  exact ⟨hlength, fun i hi => hall _ (List.mem_map_of_mem hi)⟩

theorem lossless_viewerId : viewerId.Lossless fun _ => True :=
  lossless_map lossless_word64 (fun v _ => v.number.toNat_lt) fun v _ => by simp

theorem lossless_uint32 : uint32.Lossless fun _ => True :=
  lossless_map lossless_word32 (fun n _ => n.toNat_lt) fun n _ => by simp

theorem lossless_uint64 : uint64.Lossless fun _ => True :=
  lossless_map lossless_word64 (fun n _ => n.toNat_lt) fun n _ => by simp

/-! ## Records -/

theorem lossless_library : library.Lossless LibraryFits := by
  have hfields := lossless_pair lossless_string (lossless_pair lossless_string
    (lossless_pair lossless_string (lossless_pair lossless_bool
      (lossless_pair (lossless_option lossless_viewerId) (lossless_ids lossless_folderId)))))
  refine lossless_map hfields ?_ fun _ _ => rfl
  rintro l ⟨⟨hdisplay, hmachine, hpath⟩, hfolders⟩
  exact ⟨hdisplay, hmachine, hpath, trivial, fun _ _ => trivial, hfolders⟩

theorem lossless_folder : folder.Lossless FolderFits := by
  have hfields := lossless_pair lossless_string (lossless_pair lossless_libraryId
    (lossless_pair (lossless_option lossless_folderId)
      (lossless_pair (lossless_ids lossless_folderId) (lossless_ids lossless_itemId))))
  exact lossless_map hfields (fun _ h => h) fun _ _ => rfl

theorem lossless_item : item.Lossless ItemFits := by
  have hfields := lossless_pair lossless_string (lossless_pair lossless_folderId
    (lossless_pair lossless_uint32 (lossless_pair lossless_uint32 (lossless_pair lossless_byte
      (lossless_pair lossless_bool (lossless_pair (lossless_option lossless_string)
        (lossless_pair lossless_uint64 (lossless_ids lossless_tagId))))))))
  refine lossless_map hfields ?_ fun _ _ => rfl
  rintro i ⟨⟨hname, hcomment⟩, hfolder, htags⟩
  exact ⟨hname, hfolder, trivial, trivial, trivial, trivial, hcomment, trivial, htags⟩

theorem lossless_tag : tag.Lossless TagFits := by
  have hfields := lossless_pair lossless_string
    (lossless_pair (lossless_option lossless_tagId) (lossless_ids lossless_tagId))
  exact lossless_map hfields (fun _ h => h) fun _ _ => rfl

theorem lossless_records {α : Type} {c : Coder α} {fits : α → Prop} (h : c.Lossless fits) :
    (records c).Lossless (RecordsFit fits) :=
  lossless_map (lossless_list (lossless_pair lossless_word64 h)) (fun _ hm => hm)
    fun m _ => m.ofList_entries

theorem lossless_version : version.Lossless fun _ => True := by
  refine lossless_refine lossless_word64 ?_ ?_
  · exact fun _ _ => by decide
  · exact fun _ _ => rfl

/-! ## Linked records fit -/

section Linked

variable {υ : Type} {m : SortedMap Nat υ} (hm : m.Gapless) (hsize : m.size < UInt64.size)

include hm hsize

theorem number_lt {n : Nat} {v : υ} (hv : m.find? n = some v) : n < UInt64.size :=
  Nat.lt_trans (hm.lt_size_of_find? hv) hsize

/-- What a holder lists are numbers of records. -/
theorem numbersFit_listed {ρ : Type} {holders : SortedMap Nat ρ} {listed : ρ → List Nat}
    {home : υ → Option Nat} (hl : holders.Lists listed m home) {k : Nat} {r : ρ}
    (hr : holders.find? k = some r) : NumbersFit (listed r) := by
  rw [hl hr]
  refine ⟨Nat.lt_of_le_of_lt (m.length_keysWith_le _) hsize, fun n hn => ?_⟩
  obtain ⟨v, hv, _⟩ := SortedMap.mem_keysWith_iff.1 hn
  exact number_lt hm hsize hv

/-- Different numbers of records are no more than there are records. -/
theorem numbersFit_of_nodup {numbers : List Nat} (hnodup : numbers.Nodup)
    (hnumbers : ∀ n ∈ numbers, ∃ v, m.find? n = some v) : NumbersFit numbers := by
  have hsub : numbers ⊆ List.range m.size := fun n hn =>
    List.mem_range.2 (hm.exists_find?_iff.1 (hnumbers n hn))
  have hlength : numbers.length ≤ m.size := by
    simpa using (List.subperm_of_subset hnodup hsub).length_le
  refine ⟨Nat.lt_of_le_of_lt hlength hsize, fun n hn => ?_⟩
  obtain ⟨v, hv⟩ := hnumbers n hn
  exact number_lt hm hsize hv

theorem recordsFit_of_all {fits : υ → Prop} (h : m.All fits) : RecordsFit fits m := by
  refine ⟨hsize, fun e he => ?_⟩
  have hfind := SortedMap.find?_eq_some_iff.2 he
  exact ⟨number_lt hm hsize hfind, h hfind⟩

end Linked

section Catalog

variable {c : Catalog} (h : c.Links) (hfits : c.FitsWords)

include h hfits

theorem recordsFit_libraries : RecordsFit LibraryFits c.libraries := by
  refine recordsFit_of_all h.folders.gapless hfits.libraries fun k l hl => ?_
  exact ⟨hfits.texts.libraries hl,
    numbersFit_listed h.folders.ranked.gapless hfits.folders h.folders.tops hl⟩

theorem recordsFit_folders : RecordsFit FolderFits c.folders := by
  refine recordsFit_of_all h.folders.ranked.gapless hfits.folders fun k f hf => ?_
  refine ⟨hfits.texts.folders hf, ?_, fun p hp => ?_, ?_, ?_⟩
  · obtain ⟨l, hl⟩ := h.folders.library hf _ (List.mem_singleton.2 rfl)
    exact number_lt h.folders.gapless hfits.libraries hl
  · have habove : f.above = some p.index := by rw [Folder.above, hp]; rfl
    obtain ⟨_, g, hg, _⟩ := h.folders.ranked.above hf habove
    exact number_lt h.folders.ranked.gapless hfits.folders hg
  · exact numbersFit_listed h.folders.ranked.gapless hfits.folders h.folders.children hf
  · exact numbersFit_listed h.items.gapless hfits.items h.items.listed hf

theorem recordsFit_items : RecordsFit ItemFits c.items := by
  refine recordsFit_of_all h.items.gapless hfits.items fun k i hi => ?_
  refine ⟨hfits.texts.items hi, ?_, ?_⟩
  · obtain ⟨f, hf⟩ := h.items.folder hi _ (List.mem_singleton.2 rfl)
    exact number_lt h.folders.ranked.gapless hfits.folders hf
  · exact numbersFit_of_nodup h.tags.ranked.gapless hfits.tags
      ((h.items.nodup hi).map tagIndex_injective) (h.items.tags hi)

theorem recordsFit_tags : RecordsFit TagFits c.tags := by
  refine recordsFit_of_all h.tags.ranked.gapless hfits.tags fun k t ht => ?_
  refine ⟨hfits.texts.tags ht, fun p hp => ?_, ?_⟩
  · have habove : t.above = some p.index := by rw [Tag.above, hp]; rfl
    obtain ⟨_, s, hs, _⟩ := h.tags.ranked.above ht habove
    exact number_lt h.tags.ranked.gapless hfits.tags hs
  · exact numbersFit_listed h.tags.ranked.gapless hfits.tags h.tags.children ht

theorem catalogFits_of_links : CatalogFits c where
  libraries := recordsFit_libraries h hfits
  folders := recordsFit_folders h hfits
  items := recordsFit_items h hfits
  tags := recordsFit_tags h hfits
  index := h.tags.index

end Catalog

theorem lossless_catalog : catalog.Lossless CatalogFits := by
  have hfields := lossless_pair lossless_version (lossless_pair (lossless_records lossless_library)
    (lossless_pair (lossless_records lossless_folder)
      (lossless_pair (lossless_records lossless_item) (lossless_records lossless_tag))))
  refine lossless_map hfields ?_ ?_
  · rintro c ⟨hlibraries, hfolders, hitems, htags, -⟩
    exact ⟨trivial, hlibraries, hfolders, hitems, htags⟩
  · rintro ⟨libraries, folders, items, tags, index⟩ hc
    exact congrArg (Catalog.mk libraries folders items tags) hc.index.symm

end Payload

/-- A catalog whose records fit is read back as it was, whatever bytes stand behind its payload. -/
theorem Catalog.ofPayload_of_fits {c : Catalog} (h : Payload.CatalogFits c) (rest : List UInt8) :
    ofPayload (c.toPayload ++ rest) = .ok c := by
  rw [ofPayload, toPayload, Payload.lossless_catalog c h rest]
  rfl

/-- A catalog is read back as it was, whatever bytes stand behind its payload. -/
theorem Catalog.ofPayload_toPayload {c : Catalog} (h : c.Links) (hfits : c.FitsWords)
    (rest : List UInt8) : ofPayload (c.toPayload ++ rest) = .ok c :=
  ofPayload_of_fits (Payload.catalogFits_of_links h hfits) rest

end PictureSearch

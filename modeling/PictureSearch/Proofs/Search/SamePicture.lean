import PictureSearch.Proofs.Search.Meaning
import PictureSearch.Proofs.Search.Paging

/-!
# One picture in two catalogs

What a query sees of a picture comes from its record, from the folders above it, from its library
and from the names of its tags.  Where two catalogs agree on these, they agree on every predicate
and on the row of the picture:

    SamePicture c d id item → c.admits p id = d.admits p id                (SamePicture.admits_eq)
    SamePicture c d id item → c.view? id = d.view? id                       (SamePicture.view?_eq)
-/

namespace PictureSearch

namespace Catalog

/-- The picture is the same in two catalogs, and so are what is above it and the names of its
tags. -/
structure SamePicture (c d : Catalog) (id : ItemId) (item : Item) : Prop where
  here : c.item? id = some item
  there : d.item? id = some item
  /-- The folders from the top down to that of the picture. -/
  folders : ∀ {fs}, c.FolderLine item.folder fs →
    ∃ gs, d.FolderLine item.folder gs ∧ gs.map Folder.outline = fs.map Folder.outline
  library : ∃ l m, c.LiesIn item l ∧ d.LiesIn item m ∧ m.outline = l.outline
  tagNames : c.tagNames item = d.tagNames item

namespace SamePicture

variable {c d : Catalog} {id : ItemId} {item : Item} (h : SamePicture c d id item)

include h

theorem libraryOf?_eq :
    ∃ l m, c.libraryOf? item = some l ∧ d.libraryOf? item = some m ∧ m.outline = l.outline := by
  obtain ⟨l, m, hl, hm, ho⟩ := h.library
  exact ⟨l, m, (c.libraryOf?_eq_some_iff item).2 hl, (d.libraryOf?_eq_some_iff item).2 hm, ho⟩

theorem isNsfw_eq : c.isNsfw item = d.isNsfw item := by
  obtain ⟨l, m, hl, hm, ho⟩ := h.libraryOf?_eq
  have hn := (Library.outline_eq_iff.1 ho).2.2.2.1
  rw [isNsfw, isNsfw, hl, hm, Option.any_some, Option.any_some, hn]

/-- Every test comes out the same, on whosever behalf. -/
theorem passes_eq (t : Test) : c.passes item t = d.passes item t := by
  cases t with
  | visible viewer =>
    obtain ⟨l, m, hl, hm, ho⟩ := h.libraryOf?_eq
    simp only [passes, visibleTo, hl, hm, Option.any_some, Library.visibleTo,
      (Library.outline_eq_iff.1 ho).2.2.2.2]
  | compare attr op value =>
    cases value with
    | integer n =>
      have hv : c.integerValue? item attr = d.integerValue? item attr := by
        cases attr <;> simp only [integerValue?, h.isNsfw_eq]
      rw [passes, passes, hv]
    | text s => rfl
  | like attr pattern => rfl
  | contains attr value => rw [passes, passes, h.tagNames]

theorem admits_eq (p : Predicate) : c.admits p id = d.admits p id := by
  refine admits_congr (fun t => ?_) p
  rw [admits, admits, h.here, h.there]
  exact h.passes_eq t

theorem itemPath?_eq (hc : c.Built) (hd : d.Built) : c.itemPath? id = d.itemPath? id := by
  obtain ⟨l, m, ⟨f, hf, hfl⟩, ⟨g, hg, hgm⟩, hml⟩ := h.library
  obtain ⟨fs, hfs⟩ := hc.exists_folderLine hf
  obtain ⟨gs, hgs, hgf⟩ := h.folders hfs
  rw [hc.itemPath?_eq h.here hf hfl hfs, hd.itemPath?_eq h.there hg hgm hgs,
    Folder.map_name_eq hgf, (Library.outline_eq_iff.1 hml).2.1]

theorem view?_eq (hc : c.Built) (hd : d.Built) : c.view? id = d.view? id := by
  simp [view?, h.itemPath?_eq hc hd, h.here, h.there, h.isNsfw_eq, h.tagNames]

end SamePicture

end Catalog

end PictureSearch

import PictureSearch.Proofs.Catalog.Atomic

/-!
# What calls leave as it was

A call puts a record into a list and changes nothing else of the records that are there.  So after
any calls a picture is what it was, and a library, a folder or a tag is what it was but for its
lists; new pictures come behind the others:

    c.Built → c.Extends (c.newItems more) (more.foldl after c)                 (extends_foldl_after)
-/

namespace PictureSearch

/-- A tag without the list of its children. -/
def Tag.outline (t : Tag) : Tag := { t with children := [] }

theorem Tag.outline_eq_iff {s t : Tag} :
    s.outline = t.outline ↔ s.name = t.name ∧ s.parent = t.parent := by
  cases s
  cases t
  simp [outline]

namespace Catalog

/-- All records of `c` are in `d`, where only their lists have changed; of the pictures of `d` those
in `new` come behind those of `c`. -/
structure Extends (c : Catalog) (new : List ItemId) (d : Catalog) : Prop where
  built : d.Built
  itemIds : d.itemIds = c.itemIds ++ new
  item : ∀ {id i}, c.item? id = some i → d.item? id = some i
  folder : ∀ {id f}, c.folder? id = some f → ∃ g, d.folder? id = some g ∧ g.outline = f.outline
  library : ∀ {id l}, c.library? id = some l → ∃ m, d.library? id = some m ∧ m.outline = l.outline
  tag : ∀ {id t}, c.tag? id = some t → ∃ s, d.tag? id = some s ∧ s.outline = t.outline

/-- The picture that a call adds, if it adds one. -/
def newItem? (c : Catalog) (call : BuildCall) : Option ItemId :=
  match call with
  | .item .. => (c.added call).toOption.map ItemId.mk
  | _ => none

/-- The pictures that calls add, one after the other. -/
def newItems (c : Catalog) : List BuildCall → List ItemId
  | [] => []
  | call :: rest => (c.newItem? call).toList ++ newItems (c.after call) rest

/-! ## Lemmas: one call -/

namespace Extends

variable {c d e : Catalog} {new new' : List ItemId}

theorem refl (h : c.Built) : c.Extends [] c :=
  ⟨h, (List.append_nil _).symm, id, fun hf => ⟨_, hf, rfl⟩, fun hl => ⟨_, hl, rfl⟩,
    fun ht => ⟨_, ht, rfl⟩⟩

theorem trans (h : c.Extends new d) (h' : d.Extends new' e) : c.Extends (new ++ new') e where
  built := h'.built
  itemIds := by rw [h'.itemIds, h.itemIds, List.append_assoc]
  item hi := h'.item (h.item hi)
  folder hf := by
    obtain ⟨g, hg, hgf⟩ := h.folder hf
    obtain ⟨g', hg', hgg⟩ := h'.folder hg
    exact ⟨g', hg', hgg.trans hgf⟩
  library hl := by
    obtain ⟨m, hm, hml⟩ := h.library hl
    obtain ⟨m', hm', hmm⟩ := h'.library hm
    exact ⟨m', hm', hmm.trans hml⟩
  tag ht := by
    obtain ⟨s, hs, hst⟩ := h.tag ht
    obtain ⟨s', hs', hss⟩ := h'.tag hs
    exact ⟨s', hs', hss.trans hst⟩

end Extends

theorem newItem?_of_adds_item {c d : Catalog} {folder : FolderId} {item : NewItem}
    (ha : c.Adds (.item folder item) d) :
    c.newItem? (.item folder item) = some ⟨c.items.freshKey⟩ := by
  rw [newItem?, added, addItem_eq_ok_iff.2 ⟨ha, rfl⟩]
  rfl

/-- The pictures that a call adds where it goes well. -/
theorem extends_of_adds {c d : Catalog} (h : c.Built) {call : BuildCall} (ha : c.Adds call d) :
    c.Extends (c.newItem? call).toList d := by
  have hd := h.of_adds ha
  have hfolders := h.links.folders.ranked.gapless
  have hitems := h.links.items.gapless
  have htags := h.links.tags.ranked.gapless
  have same := Extends.refl h
  -- a record is found again where another is added, and where a list is changed
  have insert {υ ω : Type} (view : υ → ω) {m : SortedMap Nat υ} (hm : m.Gapless) (v : υ) {k : Nat}
      {r : υ} (hr : m.find? k = some r) :
      ∃ s, (m.insert m.freshKey v).find? k = some s ∧ view s = view r :=
    ⟨r, hm.find?_insert_of_find? hr v, rfl⟩
  have update {υ ω : Type} (view : υ → ω) {m : SortedMap Nat υ} {k n : Nat} {f : υ → υ}
      (hf : ∀ v, view (f v) = view v) {r : υ} (hr : m.find? k = some r) :
      ∃ s, (m.update n f).find? k = some s ∧ view s = view r :=
    SortedMap.exists_find?_update_of_view view n hf hr
  cases ha with
  | library =>
    exact { same with built := hd, library := insert Library.outline h.links.folders.gapless _ }
  | folder =>
    exact { same with
      built := hd
      folder := insert Folder.outline hfolders _
      library := update Library.outline (by intro l; rfl) }
  | subfolder =>
    refine { same with built := hd, folder := fun hf => ?_ }
    exact update Folder.outline (by intro f; rfl) (hfolders.find?_insert_of_find? hf _)
  | rootTag => exact { same with built := hd, tag := insert Tag.outline htags _ }
  | childTag =>
    refine { same with built := hd, tag := fun ht => ?_ }
    exact update Tag.outline (by intro t; rfl) (htags.find?_insert_of_find? ht _)
  | @item folder f item hf ht =>
    rw [newItem?_of_adds_item (.item hf ht)]
    exact { same with
      built := hd
      itemIds := by
        show (c.items.insert _ _).keys.map ItemId.mk = _
        rw [hitems.keys_insert_freshKey, List.map_append]
        rfl
      item := fun hi => hitems.find?_insert_of_find? hi _
      folder := update Folder.outline (by intro f; rfl) }

theorem extends_after {c : Catalog} (h : c.Built) (call : BuildCall) :
    c.Extends (c.newItem? call).toList (c.after call) := by
  cases hadded : c.added call with
  | ok n => exact extends_of_adds h (adds_of_added h hadded).1
  | error e =>
    have hnew : c.newItem? call = none := by
      cases call with
      | item =>
        rw [newItem?, hadded]
        rfl
      | _ => rfl
    rw [hnew, after_of_added_error hadded]
    exact .refl h

/-! ## Top theorem -/

/-- Calls leave all records as they were but for their lists. -/
theorem extends_foldl_after {c : Catalog} (h : c.Built) (more : List BuildCall) :
    c.Extends (c.newItems more) (more.foldl after c) := by
  induction more generalizing c with
  | nil => exact .refl h
  | cons call rest ih => exact (extends_after h call).trans (ih (h.after call))

/-! ## What is seen of a record -/

namespace Extends

variable {c d : Catalog} {new : List ItemId} (h : c.Extends new d)

include h

theorem folderLine {id : FolderId} {fs : List Folder} (hline : c.FolderLine id fs) :
    ∃ gs, d.FolderLine id gs ∧ gs.map Folder.outline = fs.map Folder.outline := by
  refine Ascent.Line.exists_of_kept (fun hf => ?_) hline
  obtain ⟨g, hg, hgf⟩ := h.folder hf
  exact ⟨g, hg, (Folder.outline_eq_iff.1 hgf).2.2, hgf⟩

theorem tagPath?_eq (hc : c.Built) {id : TagId} {t : Tag} (ht : c.tag? id = some t) :
    d.tagPath? id = c.tagPath? id := by
  obtain ⟨ts, hline⟩ := hc.exists_tagLine ht
  obtain ⟨ss, hline', hnames⟩ : ∃ ss, d.TagLine id ss ∧ ss.map (·.name) = ts.map (·.name) := by
    refine Ascent.Line.exists_of_kept (fun ht => ?_) hline
    obtain ⟨s, hs, hst⟩ := h.tag ht
    obtain ⟨hname, hparent⟩ := Tag.outline_eq_iff.1 hst
    exact ⟨s, hs, hparent, hname⟩
  rw [h.built.tagPath?_eq hline', hc.tagPath?_eq hline, hnames]

theorem tagNames_eq (hc : c.Built) {id : ItemId} {item : Item} (hi : c.item? id = some item) :
    d.tagNames item = c.tagNames item := by
  refine List.filterMap_congr fun tag htag => ?_
  obtain ⟨t, ht⟩ := hc.links.items.tags hi tag.index (List.mem_map_of_mem htag)
  have ht : c.tag? tag = some t := ht
  obtain ⟨s, hs, hst⟩ := h.tag ht
  rw [hs, ht, Option.map_some, Option.map_some, (Tag.outline_eq_iff.1 hst).1]

end Extends

end Catalog

end PictureSearch

import PictureSearch.Proofs.Catalog.Line
import PictureSearch.Proofs.Catalog.Links

/-!
# Paths

In a catalog that was built every tag and every folder is reached from a root, so every tag has a
path, and every picture has the path that goes down from its library through its folders:

    c.Built → (c.tagPath? id).isSome = (c.tag? id).isSome                    (Built.isSome_tagPath?)
    c.Built → (c.itemPath? id).isSome = (c.item? id).isSome                 (Built.isSome_itemPath?)
-/

namespace PictureSearch

/-! ## Lines of ranked records -/

section Ranked

variable {ι ρ σ : Type} (number : ι → Nat) {m : SortedMap Nat ρ} {parent : ρ → Option ι}
  {shared : ρ → σ} (h : m.Ranked (fun r => (parent r).map number) shared)

include h

theorem above_of_ranked {id above : ι} {r : ρ} (hr : m.find? (number id) = some r)
    (hp : parent r = some above) :
    number above < number id ∧ ∃ s, m.find? (number above) = some s ∧ shared s = shared r := by
  apply h.above hr
  rw [hp]
  rfl

/-- Every record is reached from a root. -/
theorem exists_line_of_ranked {id : ι} {r : ρ} (hr : m.find? (number id) = some r) :
    ∃ rs, Ascent.Line (fun id => m.find? (number id)) parent id rs := by
  refine Ascent.exists_line number (fun hr hp => ?_) hr
  obtain ⟨hlt, s, hs, _⟩ := above_of_ranked number h hr hp
  exact ⟨hlt, s, hs⟩

/-- Following parent links from a record finds its line. -/
theorem climb_of_ranked {id : ι} {rs : List ρ}
    (hline : Ascent.Line (fun id => m.find? (number id)) parent id rs) :
    Ascent.climb (fun id => m.find? (number id)) parent m.size [] id = .rooted rs := by
  have hlen : rs.length ≤ number id + 1 :=
    Ascent.Line.length_le number (fun hr hp => (above_of_ranked number h hr hp).1) hline
  obtain ⟨r, hr, _⟩ := hline.exists_record
  have hlt : number id < m.size := h.gapless.lt_size_of_find? hr
  rw [Ascent.climb_of_line hline (by omega), List.append_nil]

end Ranked

namespace Catalog

/-- The tags from the root tag down to a tag. -/
def TagLine (c : Catalog) : TagId → List Tag → Prop := Ascent.Line c.tag? (·.parent)

namespace Built

variable {c : Catalog} (h : c.Built)

include h

/-! ## Tags -/

theorem exists_tagLine {id : TagId} {t : Tag} (ht : c.tag? id = some t) : ∃ ts, c.TagLine id ts :=
  exists_line_of_ranked TagId.index h.links.tags.ranked ht

theorem tagLine_eq {id : TagId} {ts : List Tag} (hline : c.TagLine id ts) :
    c.tagLine id = .rooted ts :=
  climb_of_ranked TagId.index h.links.tags.ranked hline

/-- The path of a tag goes down from its root tag. -/
theorem tagPath?_eq {id : TagId} {ts : List Tag} (hline : c.TagLine id ts) :
    c.tagPath? id = some ("/".intercalate (ts.map (·.name))) := by
  rw [tagPath?, h.tagLine_eq hline]
  rfl

theorem isSome_tagPath? (id : TagId) : (c.tagPath? id).isSome = (c.tag? id).isSome := by
  cases ht : c.tag? id with
  | some t =>
    obtain ⟨ts, hline⟩ := h.exists_tagLine ht
    rw [h.tagPath?_eq hline]
    rfl
  | none =>
    have hmissing : c.tagLine id = .missing := by
      unfold tagLine
      cases c.tags.size <;> simp [Ascent.climb, ht]
    rw [tagPath?, hmissing]
    rfl

/-! ## Folders -/

/-- Every folder is reached from the top. -/
theorem exists_folderLine {id : FolderId} {f : Folder} (hf : c.folder? id = some f) :
    ∃ fs, c.FolderLine id fs :=
  exists_line_of_ranked FolderId.index h.links.folders.ranked hf

/-- Following parent links from a folder finds its line. -/
theorem folderLine_eq {id : FolderId} {fs : List Folder} (hline : c.FolderLine id fs) :
    c.folderLine id = .rooted fs :=
  climb_of_ranked FolderId.index h.links.folders.ranked hline

/-- All folders of a line lie in one library. -/
theorem library_of_folderLine {id : FolderId} {f : Folder} {fs : List Folder}
    (hf : c.folder? id = some f) (hline : c.FolderLine id fs) : ∀ g ∈ fs, g.library = f.library := by
  induction hline generalizing f with
  | root hr =>
    rw [hr] at hf
    cases hf
    simp
  | @child id above r rs hr hp _ ih =>
    rw [hr] at hf
    cases hf
    obtain ⟨_, g, hg, hl⟩ := above_of_ranked FolderId.index h.links.folders.ranked hr hp
    intro g' hg'
    rcases List.mem_append.1 hg' with hg' | hg'
    · rw [ih hg g' hg', hl]
    · rw [List.mem_singleton.1 hg']

/-! ## Pictures -/

/-- The path of a picture goes from its library down through its folders. -/
theorem itemPath?_eq {id : ItemId} {item : Item} {f : Folder} {l : Library} {fs : List Folder}
    (hi : c.item? id = some item) (hf : c.folder? item.folder = some f)
    (hl : c.library? f.library = some l) (hfs : c.FolderLine item.folder fs) :
    c.itemPath? id = some ("/".intercalate (l.machineName :: fs.map (·.name) ++ [item.name])) := by
  obtain ⟨_, _, hlast⟩ := hfs.exists_record
  cases fs with
  | nil => cases hlast
  | cons top fs =>
    have htop : top.library = f.library :=
      h.library_of_folderLine hf hfs top List.mem_cons_self
    rw [← htop] at hl
    simp [itemPath?, hi, h.folderLine_eq hfs, Ascent.chain?, hl]

theorem exists_folder {id : ItemId} {item : Item} (hi : c.item? id = some item) :
    ∃ f, c.folder? item.folder = some f :=
  h.links.items.folder hi _ (List.mem_singleton.2 rfl)

theorem exists_library {id : FolderId} {f : Folder} (hf : c.folder? id = some f) :
    ∃ l, c.library? f.library = some l :=
  h.links.folders.library hf _ (List.mem_singleton.2 rfl)

theorem isSome_itemPath? (id : ItemId) : (c.itemPath? id).isSome = (c.item? id).isSome := by
  cases hi : c.item? id with
  | some item =>
    obtain ⟨f, hf⟩ := h.exists_folder hi
    obtain ⟨l, hl⟩ := h.exists_library hf
    obtain ⟨fs, hfs⟩ := h.exists_folderLine hf
    rw [h.itemPath?_eq hi hf hl hfs]
    rfl
  | none => simp [itemPath?, hi]

end Built

end Catalog

end PictureSearch

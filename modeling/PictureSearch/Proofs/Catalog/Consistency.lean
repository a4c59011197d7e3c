import PictureSearch.Proofs.Catalog.Paths

/-!
# Catalogs are consistent

Whatever calls are made, with whatever arguments, the records of a catalog agree with each other:
records are numbered from 0, a reference is to a record that exists, a list of records holds just
those that refer back, and tags can be told apart by where they are and how they are called.  So
every picture and every tag has a path:

    (build calls).Consistent ∧
      (∀ id, ((build calls).itemPath? id).isSome = ((build calls).item? id).isSome) ∧
      (∀ id, ((build calls).tagPath? id).isSome = ((build calls).tag? id).isSome)
                                                                           (consistent_build)
-/

namespace PictureSearch

/-- The list holds the ids with a property, each once and in the order of their numbers. -/
structure Enumerates {ι : Type} (number : ι → Nat) (l : List ι) (p : ι → Prop) : Prop where
  increasing : l.Pairwise fun a b => number a < number b
  mem_iff : ∀ a, a ∈ l ↔ p a

namespace Catalog

/-- The records agree with each other. -/
structure Consistent (c : Catalog) : Prop where
  libraryNumbers : c.libraries.keys = List.range c.libraries.size
  folderNumbers : c.folders.keys = List.range c.folders.size
  itemNumbers : c.items.keys = List.range c.items.size
  tagNumbers : c.tags.keys = List.range c.tags.size
  libraryOfFolder : ∀ {id f}, c.folder? id = some f → ∃ l, c.library? f.library = some l
  parentOfFolder : ∀ {id f p}, c.folder? id = some f → f.parent = some p →
    p.index < id.index ∧ ∃ g, c.folder? p = some g ∧ g.library = f.library
  foldersOfLibrary : ∀ {library l}, c.library? library = some l →
    Enumerates FolderId.index l.folders fun id =>
      ∃ f, c.folder? id = some f ∧ f.parent = none ∧ f.library = library
  childrenOfFolder : ∀ {parent p}, c.folder? parent = some p →
    Enumerates FolderId.index p.children fun id =>
      ∃ f, c.folder? id = some f ∧ f.parent = some parent
  folderOfItem : ∀ {id i}, c.item? id = some i → ∃ f, c.folder? i.folder = some f
  itemsOfFolder : ∀ {folder f}, c.folder? folder = some f →
    Enumerates ItemId.index f.items fun id => ∃ i, c.item? id = some i ∧ i.folder = folder
  tagsOfItem : ∀ {id i}, c.item? id = some i →
    i.tags.Nodup ∧ ∀ tag ∈ i.tags, ∃ t, c.tag? tag = some t
  nameOfTag : ∀ {id t}, c.tag? id = some t → t.name ≠ "" ∧ '/' ∉ t.name.toList
  siblings : ∀ {id id' t t'}, c.tag? id = some t → c.tag? id' = some t' → t.parent = t'.parent →
    t.name = t'.name → id = id'
  parentOfTag : ∀ {id t p}, c.tag? id = some t → t.parent = some p →
    p.index < id.index ∧ ∃ s, c.tag? p = some s
  childrenOfTag : ∀ {parent p}, c.tag? parent = some p →
    Enumerates TagId.index p.children fun id => ∃ t, c.tag? id = some t ∧ t.parent = some parent
  tagsOfName : ∀ name,
    Enumerates TagId.index (c.tagsNamed name) fun id => ∃ t, c.tag? id = some t ∧ t.name = name

/-! ## Lemmas -/

/-- A list whose numbers are those of the records that pass a test. -/
theorem enumerates_of_keysWith {ι υ : Type} {number : ι → Nat} (hn : Function.Injective number)
    {l : List ι} {m : SortedMap Nat υ} {test : υ → Bool} (hl : l.map number = m.keysWith test)
    {q : υ → Prop} (hq : ∀ v, test v = true ↔ q v) :
    Enumerates number l fun a => ∃ v, m.find? (number a) = some v ∧ q v := by
  refine ⟨List.pairwise_map.1 (hl ▸ m.keysWith_pairwise test), fun a => ?_⟩
  simp only [← hq, ← SortedMap.mem_keysWith_iff, ← hl]
  exact (List.mem_map_of_injective hn).symm

theorem map_beq_some_iff {ι : Type} {number : ι → Nat} (hn : Function.Injective number)
    {o : Option ι} {a : ι} : (o.map number == some (number a)) = true ↔ o = some a := by
  rw [beq_iff_eq, ← Option.map_some, (Option.map_injective hn).eq_iff]

theorem topOf_beq_iff {f : Folder} {library : LibraryId} :
    (f.topOf == some library.index) = true ↔ f.parent = none ∧ f.library = library := by
  unfold Folder.topOf
  split
  · next hp =>
    rw [beq_iff_eq, Option.some.injEq, libraryIndex_injective.eq_iff]
    exact (and_iff_right hp).symm
  · next hp => simp [hp]

theorem Built.consistent {c : Catalog} (h : c.Built) : c.Consistent where
  libraryNumbers := h.links.folders.gapless
  folderNumbers := h.links.folders.ranked.gapless
  itemNumbers := h.links.items.gapless
  tagNumbers := h.links.tags.ranked.gapless
  libraryOfFolder := h.exists_library
  parentOfFolder := above_of_ranked FolderId.index h.links.folders.ranked
  foldersOfLibrary := fun hl =>
    enumerates_of_keysWith folderIndex_injective (h.links.folders.tops hl) fun _ => topOf_beq_iff
  childrenOfFolder := fun hp =>
    enumerates_of_keysWith folderIndex_injective (h.links.folders.children hp) fun _ =>
      map_beq_some_iff folderIndex_injective
  folderOfItem := h.exists_folder
  itemsOfFolder := fun {folder f} hf => by
    refine enumerates_of_keysWith itemIndex_injective (h.links.items.listed hf) fun i => ?_
    rw [beq_iff_eq, Option.some.injEq]
    exact folderIndex_injective.eq_iff
  tagsOfItem := fun hi =>
    ⟨h.links.items.nodup hi, fun _ ht => h.links.items.tags hi _ (List.mem_map_of_mem ht)⟩
  nameOfTag := fun ht => h.links.tags.names.usable ht
  siblings := fun ht ht' hp hn => congrArg TagId.mk (h.links.tags.names.apart ht ht' hp hn)
  parentOfTag := fun ht hp => by
    obtain ⟨hlt, s, hs, _⟩ := above_of_ranked TagId.index h.links.tags.ranked ht hp
    exact ⟨hlt, s, hs⟩
  childrenOfTag := fun hp =>
    enumerates_of_keysWith tagIndex_injective (h.links.tags.children hp) fun _ =>
      map_beq_some_iff tagIndex_injective
  tagsOfName := fun name => by
    rw [tagsNamed, h.links.tags.index, TagIndex.named_ofTags]
    refine enumerates_of_keysWith tagIndex_injective (m := c.tags) ?_ fun t => beq_iff_eq
    rw [List.map_map]
    exact List.map_id _

/-! ## Top theorem -/

/-- Every run of calls makes a consistent catalog, in which all pictures and tags have paths. -/
theorem consistent_build (calls : List BuildCall) :
    (build calls).Consistent ∧
      (∀ id, ((build calls).itemPath? id).isSome = ((build calls).item? id).isSome) ∧
      (∀ id, ((build calls).tagPath? id).isSome = ((build calls).tag? id).isSome) := by
  have h := built_build calls
  exact ⟨h.consistent, h.isSome_itemPath?, h.isSome_tagPath?⟩

end Catalog

end PictureSearch

import PictureSearch.Catalog.Basic
import PictureSearch.Proofs.Catalog.Listing

/-!
# The index of tag names

The index that a catalog keeps while it grows is the one that is built anew from its tags, and
it gives, for every name, the tags of that name in the order of their numbers:

    (TagIndex.ofTags tags).named name =
      (tags.keysWith fun t => t.name == name).map TagId.mk                   (named_ofTags)
-/

namespace PictureSearch.TagIndex

theorem named_add (x : TagIndex) (name : String) (id : TagId) (other : String) :
    (x.add name id).named other = if other = name then x.named name ++ [id] else x.named other := by
  unfold named add
  split
  · next h => rw [h, SortedMap.find?_insert_self, Option.getD_some, named]
  · next h => rw [SortedMap.find?_insert_of_ne _ _ h]

theorem named_foldl_add (tags : List (Nat × Tag)) (x : TagIndex) (name : String) :
    (tags.foldl (fun x e => x.add e.2.name ⟨e.1⟩) x).named name =
      x.named name ++ (tags.filter fun e => e.2.name == name).map fun e => ⟨e.1⟩ := by
  induction tags generalizing x with
  | nil => simp
  | cons e rest ih =>
    rw [List.foldl_cons, ih, named_add]
    by_cases h : name = e.2.name
    · simp [h]
    · simp [h, Ne.symm h]

/-- The tags of a name, in the order of their numbers. -/
theorem named_ofTags (tags : SortedMap Nat Tag) (name : String) :
    (ofTags tags).named name = (tags.keysWith fun t => t.name == name).map TagId.mk := by
  rw [ofTags, named_foldl_add, SortedMap.keysWith, List.map_map]
  rfl

theorem ofTags_insert_freshKey {tags : SortedMap Nat Tag} (h : tags.Gapless) (t : Tag) :
    ofTags (tags.insert tags.freshKey t) = (ofTags tags).add t.name ⟨tags.freshKey⟩ := by
  rw [ofTags, h.entries_insert_freshKey, List.foldl_append, h.freshKey_eq_size]
  rfl

/-- A change in place that keeps the name. -/
theorem ofTags_update (tags : SortedMap Nat Tag) (k : Nat) {f : Tag → Tag}
    (hf : ∀ t, (f t).name = t.name) : ofTags (tags.update k f) = ofTags tags := by
  have hfold (tags : SortedMap Nat Tag) : ofTags tags =
      (tags.entries.map fun e => (e.1, e.2.name)).foldl (fun x e => x.add e.2 ⟨e.1⟩) empty := by
    rw [ofTags, List.foldl_map]
  rw [hfold, hfold, tags.map_entries_update k hf]

end PictureSearch.TagIndex

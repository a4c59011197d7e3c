import PictureSearch.Proofs.Payload.Truncation
import PictureSearch.Proofs.Snapshot.Loading

/-!
# The index has the tags of each name

The index is kept call by call while a catalog grows, and built anew when one is read from bytes.
Either way it has under each name the tags of that name, all of them and no others.  That holds of
every catalog there can be, also of one that was read from bytes with gaps in its numbers and grew
from there, whichever of the gaps a new tag fills:

    c.Arises → (id ∈ c.tagsNamed name ↔ c.tagName? id = some name)               (indexed_of_arises)

Of the number of a new record nothing is asked but that it was free (`Free`).
-/

namespace PictureSearch.Catalog

/-! ## Statements -/

/-- No record has the number that the record of a call is to take. -/
def Free (c : Catalog) (n : Nat) : BuildCall → Prop
  | .library .. => c.library? ⟨n⟩ = none
  | .folder .. | .subfolder .. => c.folder? ⟨n⟩ = none
  | .tag .. => c.tag? ⟨n⟩ = none
  | .item .. => c.item? ⟨n⟩ = none

/-- The ways in which a catalog comes into being. -/
inductive Arises : Catalog → Prop
  | empty : Arises .empty
  | afterAt {c : Catalog} {n : Nat} (call : BuildCall) :
      Arises c → c.Free n call → Arises (c.afterAt n call)
  | snapshot {s : Snapshot} {c : Catalog} : ofSnapshot s = .ok c → Arises c
  | payload {bytes : List UInt8} {c : Catalog} : ofPayload bytes = .ok c → Arises c

/-- The name of the tag with a number, if there is one. -/
def tagName? (c : Catalog) (id : TagId) : Option String := (c.tag? id).map (·.name)

/-- Under each name the index has the tags of that name and no others. -/
def Indexed (c : Catalog) : Prop := ∀ name id, id ∈ c.tagsNamed name ↔ c.tagName? id = some name

/-! ## Lemmas: an index that is built anew -/

theorem indexed_of_index {c : Catalog} (h : c.tagIndex = .ofTags c.tags) : c.Indexed := by
  intro name id
  rw [tagsNamed, h, TagIndex.named_ofTags, List.mem_map, tagName?, Option.map_eq_some_iff]
  constructor
  · rintro ⟨k, hk, rfl⟩
    obtain ⟨t, ht, hname⟩ := SortedMap.mem_keysWith_iff.1 hk
    exact ⟨t, ht, eq_of_beq hname⟩
  · rintro ⟨t, ht, hname⟩
    exact ⟨id.index, SortedMap.mem_keysWith_iff.2 ⟨t, ht, beq_iff_eq.2 hname⟩, rfl⟩

theorem Built.of_ofSnapshot {s : Snapshot} {d : Catalog} (h : ofSnapshot s = .ok d) : d.Built := by
  rw [ofSnapshot_eq] at h
  obtain ⟨c, hc, hd⟩ := bind_eq_ok_iff.1 h
  obtain ⟨_, _, hgrown, _⟩ := addSnapshotLibraries_ok (tagsAdded_of_addTagTrees hc).built hd
  exact hgrown.built

/-! ## Lemmas: an index that is kept -/

section Growing

variable {c d : Catalog} {name : String} {id : TagId}

/-- A new tag stands behind the others of its name, and nowhere else. -/
theorem Indexed.add (h : c.Indexed) (hindex : d.tagIndex = c.tagIndex.add name id)
    (hfree : c.tagName? id = none)
    (hnames : ∀ other, d.tagName? other = if other = id then some name else c.tagName? other) :
    d.Indexed := by
  intro name' other
  have hold (s : String) (i : TagId) : i ∈ c.tagIndex.named s ↔ c.tagName? i = some s := h s i
  rw [tagsNamed, hindex, TagIndex.named_add, hnames]
  by_cases hname : name' = name
  · rw [if_pos hname, List.mem_append, hold, hname]
    by_cases hid : other = id <;> simp [hid]
  · rw [if_neg hname, hold]
    by_cases hid : other = id
    · -- the number was free, so that no other name has it
      simp [hid, hfree, Ne.symm hname]
    · simp [hid]

theorem tagName?_insert (tags : SortedMap Nat Tag) (n : Nat) (t : Tag) (other : TagId) :
    ((tags.insert n t).find? other.index).map (·.name) =
      if other = ⟨n⟩ then some t.name else (tags.find? other.index).map (·.name) := by
  rw [SortedMap.find?_insert]
  by_cases h : other = ⟨n⟩
  · subst h
    rw [if_pos rfl, if_pos rfl, Option.map_some]
  · rw [if_neg h, if_neg fun hindex => h (congrArg TagId.mk hindex)]

theorem Indexed.of_addTag (h : c.Indexed) {parent : Option TagId} (hfree : c.tag? id = none)
    {added : TagId} (hadd : c.addTag name parent id = .ok (d, added)) : d.Indexed := by
  obtain ⟨_, -, hadd⟩ := bind_eq_ok_iff.1 hadd
  cases hadd
  refine h.add rfl (by rw [tagName?, hfree, Option.map_none]) fun other => ?_
  cases parent with
  | none => exact tagName?_insert c.tags id.index _ other
  | some parent =>
    have hname (t : Tag) : Tag.name { t with children := t.children ++ [id] } = t.name := rfl
    exact (SortedMap.map_find?_update _ parent.index hname other.index).trans
      (tagName?_insert c.tags id.index ⟨name, some parent, []⟩ other)

/-- Calls for other records than tags touch neither the tags nor their index. -/
theorem Indexed.afterAt (h : c.Indexed) {n : Nat} {call : BuildCall} (hfree : c.Free n call) :
    (c.afterAt n call).Indexed := by
  cases call with
  | library => exact h
  | folder library name =>
    rw [Catalog.afterAt, addFolder]
    cases c.library? library <;> exact h
  | subfolder parent name =>
    rw [Catalog.afterAt, addSubfolder]
    cases c.folder? parent <;> exact h
  | tag name parent =>
    rw [Catalog.afterAt]
    cases hadd : c.addTag name parent ⟨n⟩ with
    | error e => exact h
    | ok added => exact h.of_addTag hfree hadd
  | item folder item =>
    rw [Catalog.afterAt, addItem]
    cases (c.folder? folder).isNone with
    | true => exact h
    | false => cases item.tags.find? fun id => (c.tag? id).isNone <;> exact h

end Growing

/-! ## All catalogs -/

/-- The number that is taken when none is given is free. -/
theorem free_freeNumber (c : Catalog) (call : BuildCall) : c.Free (c.freeNumber call) call := by
  cases call <;> exact SortedMap.find?_freshKey _

theorem Arises.after {c : Catalog} (h : c.Arises) (call : BuildCall) : (c.after call).Arises :=
  h.afterAt call (c.free_freeNumber call)

theorem Built.arises {c : Catalog} (h : c.Built) : c.Arises := by
  induction h with
  | empty => exact .empty
  | after call _ ih => exact ih.after call

theorem indexed_of_arises {c : Catalog} (h : c.Arises) : c.Indexed := by
  induction h with
  | empty => exact indexed_of_index rfl
  | afterAt call _ hfree ih => exact ih.afterAt hfree
  | snapshot h => exact indexed_of_index (Built.of_ofSnapshot h).links.tags.index
  | payload h => exact indexed_of_index (Obtained.fits (.read h)).index

end PictureSearch.Catalog

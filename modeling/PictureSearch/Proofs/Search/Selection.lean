import Mathlib.Data.List.Sort
import PictureSearch.Search.Evaluate

/-!
# Selection is a filter

Evaluation narrows whole lists of pictures, and a disjunction or negation looks its findings up in
the list it was given.  `admits` is what a predicate says of one picture, and a list is narrowed to
the pictures that are admitted, whatever list it is:

    c.select p base = base.filter (c.admits p)      (select_eq_filter)
-/

namespace PictureSearch.Catalog

variable (c : Catalog)

mutual

/-- Whether a predicate holds of a picture; no test holds of a number without a picture. -/
def admits : Predicate → ItemId → Bool
  | .all, _ => true
  | .test t, id => (c.item? id).any fun item => c.passes item t
  | .and parts, id => admitsAll parts id
  | .or parts, id => admitsAny parts id
  | .not inner, id => !admits inner id

/-- Whether all parts hold. -/
def admitsAll : List Predicate → ItemId → Bool
  | [], _ => true
  | p :: rest, id => admits p id && admitsAll rest id

/-- Whether some part holds. -/
def admitsAny : List Predicate → ItemId → Bool
  | [], _ => false
  | p :: rest, id => admits p id || admitsAny rest id

end

/-! ## Lemmas -/

mutual

theorem select_eq_filter (p : Predicate) (base : List ItemId) :
    c.select p base = base.filter (c.admits p) := by
  cases p with
  | all =>
    rw [select]
    exact (List.filter_eq_self.2 fun _ _ => by rw [admits]).symm
  | test t => simp [select, admits]
  | and parts =>
    rw [select, selectAll_eq_filter]
    simp [admits]
  | or parts =>
    rw [select]
    apply List.filter_congr
    intro id hid
    rw [admits, Bool.eq_iff_iff, List.contains_iff_mem, mem_selectAny_iff]
    simp [hid]
  | not inner =>
    rw [select]
    apply List.filter_congr
    intro id hid
    rw [admits, select_eq_filter inner base, Bool.eq_iff_iff]
    simp [hid]

theorem selectAll_eq_filter (parts : List Predicate) (base : List ItemId) :
    c.selectAll parts base = base.filter (c.admitsAll parts) := by
  cases parts with
  | nil =>
    rw [selectAll]
    exact (List.filter_eq_self.2 fun _ _ => by rw [admitsAll]).symm
  | cons p rest =>
    rw [selectAll, selectAll_eq_filter rest, select_eq_filter p base, List.filter_filter]
    apply List.filter_congr
    intro id _
    rw [admitsAll, Bool.and_comm]

theorem mem_selectAny_iff (parts : List Predicate) (base : List ItemId) (id : ItemId) :
    id ∈ c.selectAny parts base ↔ id ∈ base ∧ c.admitsAny parts id = true := by
  cases parts with
  | nil => simp [selectAny, admitsAny]
  | cons p rest =>
    rw [selectAny, List.mem_append, mem_selectAny_iff rest, select_eq_filter p base,
      List.mem_filter, admitsAny, Bool.or_eq_true, and_or_left]

end

theorem mem_itemIds_iff (id : ItemId) : id ∈ c.itemIds ↔ ∃ item, c.item? id = some item := by
  rw [itemIds, List.mem_map]
  constructor
  · rintro ⟨k, hk, rfl⟩
    exact SortedMap.mem_keys_iff.1 hk
  · rintro ⟨item, h⟩
    exact ⟨id.index, SortedMap.mem_keys_iff.2 ⟨item, h⟩, rfl⟩

theorem itemIds_pairwise : c.itemIds.Pairwise fun a b => a.index < b.index := by
  rw [itemIds, SortedMap.keys, List.map_map]
  refine List.pairwise_map.2 (c.items.ascending.imp fun h => ?_)
  exact Nat.compare_eq_lt.1 h

theorem matching_eq_filter (p : Predicate) : c.matching p = c.itemIds.filter (c.admits p) :=
  c.select_eq_filter p c.itemIds

theorem matching_pairwise (p : Predicate) :
    (c.matching p).Pairwise fun a b => a.index < b.index := by
  rw [matching_eq_filter]
  exact c.itemIds_pairwise.filter _

theorem mem_matching_iff (p : Predicate) (id : ItemId) :
    id ∈ c.matching p ↔ (∃ item, c.item? id = some item) ∧ c.admits p id = true := by
  rw [matching_eq_filter, List.mem_filter, mem_itemIds_iff]

/-! ## Two catalogs -/

variable {c d : Catalog}

mutual

/-- Two catalogs that agree on every test of a number agree on every predicate. -/
theorem admits_congr {id : ItemId} (h : ∀ t, c.admits (.test t) id = d.admits (.test t) id)
    (p : Predicate) : c.admits p id = d.admits p id := by
  cases p with
  | all => rfl
  | test t => exact h t
  | and parts => rw [admits, admits, admitsAll_congr h parts]
  | or parts => rw [admits, admits, admitsAny_congr h parts]
  | not inner => rw [admits, admits, admits_congr h inner]

theorem admitsAll_congr {id : ItemId} (h : ∀ t, c.admits (.test t) id = d.admits (.test t) id)
    (parts : List Predicate) : c.admitsAll parts id = d.admitsAll parts id := by
  cases parts with
  | nil => rfl
  | cons p rest => rw [admitsAll, admitsAll, admits_congr h p, admitsAll_congr h rest]

theorem admitsAny_congr {id : ItemId} (h : ∀ t, c.admits (.test t) id = d.admits (.test t) id)
    (parts : List Predicate) : c.admitsAny parts id = d.admitsAny parts id := by
  cases parts with
  | nil => rfl
  | cons p rest => rw [admitsAny, admitsAny, admits_congr h p, admitsAny_congr h rest]

end

/-- Pictures found are in the order of their numbers, so what is found settles the list. -/
theorem matching_ext {p q : Predicate} (h : ∀ id, id ∈ c.matching p ↔ id ∈ d.matching q) :
    c.matching p = d.matching q := by
  have : Std.Irrefl fun a b : ItemId => a.index < b.index := ⟨fun a => Nat.lt_irrefl a.index⟩
  have : Std.Antisymm fun a b : ItemId => a.index < b.index :=
    ⟨fun _ _ hab hba => absurd hab (Nat.lt_asymm hba)⟩
  exact (c.matching_pairwise p).eq_of_mem_iff (d.matching_pairwise q) h

end PictureSearch.Catalog

import PictureSearch.SortedMap

/-!
# Numbers without gaps

Records that are only ever added under the fresh key have the numbers from 0 on, and the fresh key
is how many there are.  Changing a record in place keeps all numbers.
-/

namespace PictureSearch.SortedMap

variable {υ : Type}

/-- The keys are the numbers below the size. -/
def Gapless (m : SortedMap Nat υ) : Prop := m.keys = List.range m.size

/-! ## Lookups and keys -/

theorem find?_update (m : SortedMap Nat υ) (k : Nat) (f : υ → υ) (k' : Nat) :
    (m.update k f).find? k' = if k' = k then (m.find? k').map f else m.find? k' := by
  split
  · next h => rw [h, find?_update_self]
  · next h => exact find?_update_of_ne m f h

/-- A change in place is not seen through a view that it keeps. -/
theorem map_find?_update {ω : Type} (m : SortedMap Nat υ) (k : Nat) {f : υ → υ} {view : υ → ω}
    (hf : ∀ v, view (f v) = view v) (k' : Nat) :
    ((m.update k f).find? k').map view = (m.find? k').map view := by
  rw [find?_update]
  split
  · next h =>
    rw [h, Option.map_map]
    exact congrArg (Option.map · (m.find? k)) (funext hf)
  · rfl

/-- A value is found again after a change in place, and the view shows no change in it. -/
theorem exists_find?_update_of_view {ω : Type} (view : υ → ω) {m : SortedMap Nat υ} (k : Nat)
    {f : υ → υ} (hf : ∀ v, view (f v) = view v) {k' : Nat} {v : υ}
    (hv : m.find? k' = some v) : ∃ w, (m.update k f).find? k' = some w ∧ view w = view v := by
  have h := m.map_find?_update k hf k'
  rwa [hv, Option.map_some, Option.map_eq_some_iff] at h

/-- Placing a pair over one with the same key keeps the keys. -/
theorem map_fst_place_of_mem {k : Nat} {l : List (Nat × υ)}
    (hl : l.Pairwise fun a b => compare a.1 b.1 = .lt) (hk : k ∈ l.map (·.1)) (v : υ) :
    (place k v l).map (·.1) = l.map (·.1) := by
  induction l with
  | nil => cases hk
  | cons e rest ih =>
    obtain ⟨he, hrest⟩ := List.pairwise_cons.1 hl
    rw [List.map_cons, List.mem_cons] at hk
    unfold place
    split
    · next hlt =>
      have hlt := Nat.compare_eq_lt.1 hlt
      rcases hk with hk | hk
      · omega
      · obtain ⟨a, ha, hak⟩ := List.mem_map.1 hk
        have := Nat.compare_eq_lt.1 (he a ha)
        omega
    · next heq => simp [Nat.compare_eq_eq.1 heq]
    · next hgt =>
      have hgt := Nat.compare_eq_gt.1 hgt
      rcases hk with hk | hk
      · omega
      · rw [List.map_cons, ih hrest hk, List.map_cons]

theorem keys_update (m : SortedMap Nat υ) (k : Nat) (f : υ → υ) : (m.update k f).keys = m.keys := by
  unfold update
  cases h : m.find? k with
  | none => rfl
  | some v => exact map_fst_place_of_mem m.ascending (mem_keys_iff.2 ⟨v, h⟩) (f v)

theorem length_keys (m : SortedMap Nat υ) : m.keys.length = m.size := by
  rw [keys, List.length_map, size]

theorem size_update (m : SortedMap Nat υ) (k : Nat) (f : υ → υ) : (m.update k f).size = m.size := by
  rw [← length_keys, keys_update, length_keys]

/-- The first free number behind numbers in a row is the one behind the last. -/
theorem firstFree_of_keys {n : Nat} {l : List (Nat × υ)}
    (h : l.map (·.1) = List.range' n l.length) : firstFree n l = n + l.length := by
  induction l generalizing n with
  | nil => rfl
  | cons e rest ih =>
    rw [List.map_cons, List.length_cons, List.range'_succ, List.cons.injEq] at h
    rw [firstFree, if_pos h.1, ih h.2, List.length_cons]
    omega

/-! ## Maps without gaps -/

theorem gapless_empty : (empty : SortedMap Nat υ).Gapless := rfl

namespace Gapless

variable {m : SortedMap Nat υ}

theorem freshKey_eq_size (h : m.Gapless) : m.freshKey = m.size := by
  rw [Gapless, List.range_eq_range'] at h
  rw [freshKey, firstFree_of_keys h, Nat.zero_add, size]

theorem exists_find?_iff (h : m.Gapless) {k : Nat} : (∃ v, m.find? k = some v) ↔ k < m.size := by
  rw [← mem_keys_iff, h, List.mem_range]

theorem lt_size_of_find? (h : m.Gapless) {k : Nat} {v : υ} (hf : m.find? k = some v) :
    k < m.size :=
  h.exists_find?_iff.1 ⟨v, hf⟩

protected theorem update (h : m.Gapless) (k : Nat) (f : υ → υ) : (m.update k f).Gapless := by
  rw [Gapless, keys_update, size_update]
  exact h

theorem entries_insert_freshKey (h : m.Gapless) (v : υ) :
    (m.insert m.freshKey v).entries = m.entries ++ [(m.size, v)] := by
  have hlt : ∀ e ∈ m.entries, e.1 < m.size := by
    intro e he
    have hk : e.1 ∈ m.keys := List.mem_map_of_mem he
    rwa [h, List.mem_range] at hk
  rw [h.freshKey_eq_size]
  exact place_of_forall_gt (fun e he => Nat.compare_eq_gt.2 (hlt e he)) v

theorem size_insert_freshKey (h : m.Gapless) (v : υ) :
    (m.insert m.freshKey v).size = m.size + 1 := by
  rw [size, h.entries_insert_freshKey, List.length_append, size]
  rfl

theorem keys_insert_freshKey (h : m.Gapless) (v : υ) :
    (m.insert m.freshKey v).keys = m.keys ++ [m.freshKey] := by
  rw [keys, h.entries_insert_freshKey, List.map_append, h.freshKey_eq_size]
  rfl

theorem insert_freshKey (h : m.Gapless) (v : υ) : (m.insert m.freshKey v).Gapless := by
  rw [Gapless, h.size_insert_freshKey, h.keys_insert_freshKey, List.range_succ, h.freshKey_eq_size,
    ← h]

end Gapless

end PictureSearch.SortedMap

import Mathlib.Data.List.Sort
import PictureSearch.Proofs.Catalog.Numbering

/-!
# References and lists

A record refers to others by number, and a record that others refer to may list them.  A list says
nothing that the references do not say: it holds the numbers of the records at home with its holder,
each once and in increasing order, which is the order they were added in.

    h.Lists … → (holders.update k fill).Lists listed (members.insert members.freshKey v) home
                                                                           (Lists.insert_member)
-/

namespace PictureSearch.SortedMap

variable {ρ υ : Type}

/-- The numbers of the records that pass a test, in increasing order. -/
def keysWith (m : SortedMap Nat υ) (test : υ → Bool) : List Nat :=
  (m.entries.filter fun e => test e.2).map (·.1)

/-- All records have a property. -/
def All (m : SortedMap Nat υ) (p : υ → Prop) : Prop := ∀ ⦃k : Nat⦄ ⦃v : υ⦄, m.find? k = some v → p v

/-- Every number that a member refers to is that of a holder. -/
def Refers (members : SortedMap Nat υ) (refs : υ → List Nat) (holders : SortedMap Nat ρ) : Prop :=
  members.All fun v => ∀ n ∈ refs v, ∃ r, holders.find? n = some r

/-- Every holder lists the members at home with it, in the order of their numbers. -/
def Lists (holders : SortedMap Nat ρ) (listed : ρ → List Nat) (members : SortedMap Nat υ)
    (home : υ → Option Nat) : Prop :=
  ∀ ⦃k : Nat⦄ ⦃r : ρ⦄, holders.find? k = some r →
    listed r = members.keysWith fun v => home v == some k

/-- Numbers have no gaps, and the parent of a record has a smaller number and shares with it what
`shared` shows. -/
structure Ranked {σ : Type} (m : SortedMap Nat υ) (parent : υ → Option Nat) (shared : υ → σ) :
    Prop where
  gapless : m.Gapless
  above : ∀ {k : Nat} {v : υ} {p : Nat}, m.find? k = some v → parent v = some p →
    p < k ∧ ∃ w, m.find? p = some w ∧ shared w = shared v

/-! ## Numbers of records that pass a test -/

section KeysWith

variable {m : SortedMap Nat υ} {test : υ → Bool}

theorem mem_keysWith_iff {k : Nat} :
    k ∈ m.keysWith test ↔ ∃ v, m.find? k = some v ∧ test v = true := by
  simp only [keysWith, List.mem_map, List.mem_filter, find?_eq_some_iff]
  constructor
  · rintro ⟨⟨k, v⟩, ⟨he, ht⟩, rfl⟩
    exact ⟨v, he, ht⟩
  · rintro ⟨v, he, ht⟩
    exact ⟨(k, v), ⟨he, ht⟩, rfl⟩

theorem keysWith_pairwise (m : SortedMap Nat υ) (test : υ → Bool) :
    (m.keysWith test).Pairwise (· < ·) := by
  refine List.pairwise_map.2 ((m.ascending.filter _).imp fun h => ?_)
  exact Nat.compare_eq_lt.1 h

theorem length_keysWith_le (m : SortedMap Nat υ) (test : υ → Bool) :
    (m.keysWith test).length ≤ m.size := by
  rw [keysWith, List.length_map, size]
  exact List.length_filter_le _ _

/-- A change in place that a test does not see. -/
theorem keysWith_update {k : Nat} {f : υ → υ} (hf : ∀ v, test (f v) = test v) :
    (m.update k f).keysWith test = m.keysWith test := by
  refine ((m.update k f).keysWith_pairwise test).eq_of_mem_iff (m.keysWith_pairwise test) ?_
  intro k'
  rw [mem_keysWith_iff, mem_keysWith_iff, ← Option.map_eq_some_iff, ← Option.map_eq_some_iff,
    m.map_find?_update k hf]

theorem Gapless.keysWith_insert_freshKey (h : m.Gapless) (v : υ) :
    (m.insert m.freshKey v).keysWith test = m.keysWith test ++ if test v then [m.size] else [] := by
  rw [keysWith, h.entries_insert_freshKey, List.filter_append, List.map_append, keysWith]
  congr 1
  cases ht : test v <;> simp [ht]

end KeysWith

/-! ## Growing maps -/

/-- A change in place is not seen in the entries through a view that it keeps. -/
theorem map_entries_update {ω : Type} (m : SortedMap Nat υ) (k : Nat) {f : υ → υ} {view : υ → ω}
    (hf : ∀ v, view (f v) = view v) :
    ((m.update k f).entries.map fun e => (e.1, view e.2)) =
      m.entries.map fun e => (e.1, view e.2) := by
  have hmem (m : SortedMap Nat υ) (a : Nat × ω) :
      (a ∈ m.entries.map fun e => (e.1, view e.2)) ↔ (m.find? a.1).map view = some a.2 := by
    simp only [List.mem_map, Option.map_eq_some_iff, find?_eq_some_iff]
    constructor
    · rintro ⟨e, he, rfl⟩
      exact ⟨e.2, he, rfl⟩
    · rintro ⟨v, hv, hw⟩
      exact ⟨(a.1, v), hv, by rw [hw]⟩
  have hpairwise (m : SortedMap Nat υ) :
      (m.entries.map fun e => (e.1, view e.2)).Pairwise fun a b => a.1 < b.1 :=
    List.pairwise_map.2 (m.ascending.imp Nat.compare_eq_lt.1)
  have : Std.Irrefl fun a b : Nat × ω => a.1 < b.1 := ⟨fun a => Nat.lt_irrefl a.1⟩
  have : Std.Antisymm fun a b : Nat × ω => a.1 < b.1 :=
    ⟨fun _ _ hab hba => absurd hab (Nat.lt_asymm hba)⟩
  refine (hpairwise _).eq_of_mem_iff (hpairwise m) fun a => ?_
  rw [hmem, hmem, m.map_find?_update k hf]

theorem exists_find?_update_iff {m : SortedMap Nat υ} {k n : Nat} {f : υ → υ} :
    (∃ v, (m.update k f).find? n = some v) ↔ ∃ v, m.find? n = some v := by
  rw [← mem_keys_iff, keys_update, mem_keys_iff]

theorem exists_find?_insert {m : SortedMap Nat υ} {k n : Nat} {v : υ}
    (h : ∃ w, m.find? n = some w) : ∃ w, (m.insert k v).find? n = some w := by
  rw [find?_insert]
  split
  · exact ⟨v, rfl⟩
  · exact h

theorem Gapless.find?_insert_of_find? {m : SortedMap Nat υ} (h : m.Gapless) {n : Nat} {w : υ}
    (hf : m.find? n = some w) (v : υ) : (m.insert m.freshKey v).find? n = some w := by
  have hlt := h.lt_size_of_find? hf
  rw [← h.freshKey_eq_size] at hlt
  rw [find?_insert, if_neg (Nat.ne_of_lt hlt), hf]

/-! ## What all records have -/

namespace All

variable {m : SortedMap Nat υ} {p : υ → Prop}

theorem empty : All (.empty : SortedMap Nat υ) p := nofun

theorem insert (h : m.All p) (k : Nat) {v : υ} (hv : p v) : (m.insert k v).All p := by
  intro n w hw
  rw [find?_insert] at hw
  split at hw
  · cases hw
    exact hv
  · exact h hw

theorem update (h : m.All p) (k : Nat) {f : υ → υ} (hf : ∀ v, p v → p (f v)) :
    (m.update k f).All p := by
  intro n w hw
  rw [find?_update] at hw
  split at hw
  · obtain ⟨v, hv, rfl⟩ := Option.map_eq_some_iff.1 hw
    exact hf v (h hv)
  · exact h hw

end All

/-! ## References -/

namespace Refers

variable {members : SortedMap Nat υ} {refs : υ → List Nat} {holders : SortedMap Nat ρ}

theorem empty : Refers (.empty : SortedMap Nat υ) refs holders := nofun

theorem insert_member (h : members.Refers refs holders) {v : υ}
    (hv : ∀ n ∈ refs v, ∃ r, holders.find? n = some r) :
    (members.insert members.freshKey v).Refers refs holders :=
  All.insert h _ hv

theorem update_member (h : members.Refers refs holders) (k : Nat) {f : υ → υ}
    (hf : ∀ v, refs (f v) = refs v) : (members.update k f).Refers refs holders :=
  All.update h k fun v hv => by rwa [hf]

theorem insert_holder (h : members.Refers refs holders) (k : Nat) (r : ρ) :
    members.Refers refs (holders.insert k r) :=
  fun _ _ hv n hn => exists_find?_insert (h hv n hn)

theorem update_holder (h : members.Refers refs holders) (k : Nat) (f : ρ → ρ) :
    members.Refers refs (holders.update k f) :=
  fun _ _ hv n hn => exists_find?_update_iff.2 (h hv n hn)

end Refers

/-! ## Lists -/

namespace Lists

variable {holders : SortedMap Nat ρ} {listed : ρ → List Nat} {members : SortedMap Nat υ}
  {home : υ → Option Nat}

theorem empty : Lists (.empty : SortedMap Nat ρ) listed members home := nofun

/-- A new holder has no members yet. -/
theorem insert_holder (h : holders.Lists listed members home) {refs : υ → List Nat}
    (hrefs : members.Refers refs holders) (hhome : ∀ {v k}, home v = some k → k ∈ refs v) {r : ρ}
    (hr : listed r = []) :
    (holders.insert holders.freshKey r).Lists listed members home := by
  intro k r' hr'
  rw [find?_insert] at hr'
  split at hr'
  · next hk =>
    cases hr'
    rw [hr, eq_comm, List.eq_nil_iff_forall_not_mem]
    intro n hn
    obtain ⟨v, hv, hh⟩ := mem_keysWith_iff.1 hn
    obtain ⟨s, hs⟩ := hrefs hv k (hhome (by simpa using hh))
    rw [hk, find?_freshKey] at hs
    cases hs
  · exact h hr'

theorem update_holder (h : holders.Lists listed members home) (k : Nat) {f : ρ → ρ}
    (hf : ∀ r, listed (f r) = listed r) : (holders.update k f).Lists listed members home := by
  intro n r hr
  rw [find?_update] at hr
  split at hr
  · obtain ⟨s, hs, rfl⟩ := Option.map_eq_some_iff.1 hr
    rw [hf]
    exact h hs
  · exact h hr

theorem update_member (h : holders.Lists listed members home) (k : Nat) {f : υ → υ}
    (hf : ∀ v, home (f v) = home v) : holders.Lists listed (members.update k f) home := by
  intro n r hr
  rw [keysWith_update fun v => by rw [hf]]
  exact h hr

/-- A new member without a home is on no list. -/
theorem insert_homeless (h : holders.Lists listed members home) (hm : members.Gapless) {v : υ}
    (hv : home v = none) :
    holders.Lists listed (members.insert members.freshKey v) home := by
  intro k r hr
  rw [hm.keysWith_insert_freshKey, hv, h hr]
  simp

/-- A new member is put at the end of the list of its home. -/
theorem insert_member (h : holders.Lists listed members home) (hm : members.Gapless) {v : υ}
    {k : Nat} (hv : home v = some k) {fill : ρ → ρ}
    (hfill : ∀ r, listed (fill r) = listed r ++ [members.freshKey]) :
    (holders.update k fill).Lists listed (members.insert members.freshKey v) home := by
  intro n r hr
  rw [hm.keysWith_insert_freshKey, hv]
  rw [find?_update] at hr
  split at hr
  · next hk =>
    obtain ⟨s, hs, rfl⟩ := Option.map_eq_some_iff.1 hr
    rw [hfill, h hs, hm.freshKey_eq_size, hk]
    simp
  · next hk =>
    rw [h hr]
    simp [Ne.symm hk]

end Lists

/-! ## Parents -/

namespace Ranked

variable {σ : Type} {m : SortedMap Nat υ} {parent : υ → Option Nat} {shared : υ → σ}

theorem empty : Ranked (.empty : SortedMap Nat υ) parent shared := ⟨gapless_empty, nofun⟩

/-- A new record keeps the ranks if its parent is there and shares what is asked for. -/
theorem insert (h : m.Ranked parent shared) {v : υ}
    (hv : ∀ p, parent v = some p → ∃ w, m.find? p = some w ∧ shared w = shared v) :
    (m.insert m.freshKey v).Ranked parent shared := by
  refine ⟨h.gapless.insert_freshKey v, fun {k w p} hk hp => ?_⟩
  rw [find?_insert] at hk
  split at hk
  · next heq =>
    cases hk
    obtain ⟨w, hw, hs⟩ := hv p hp
    have hlt := h.gapless.lt_size_of_find? hw
    rw [← h.gapless.freshKey_eq_size] at hlt
    exact ⟨heq ▸ hlt, w, h.gapless.find?_insert_of_find? hw _, hs⟩
  · obtain ⟨hlt, w', hw', hs⟩ := h.above hk hp
    exact ⟨hlt, w', h.gapless.find?_insert_of_find? hw' _, hs⟩

/-- A change in place keeps the ranks if it keeps the parent and what is shared. -/
theorem update (h : m.Ranked parent shared) (k : Nat) {f : υ → υ}
    (hparent : ∀ v, parent (f v) = parent v) (hshared : ∀ v, shared (f v) = shared v) :
    (m.update k f).Ranked parent shared := by
  refine ⟨h.gapless.update k f, fun {n w p} hn hp => ?_⟩
  have old : ∃ v, m.find? n = some v ∧ parent v = some p ∧ shared v = shared w := by
    rw [find?_update] at hn
    split at hn
    · obtain ⟨v, hv, rfl⟩ := Option.map_eq_some_iff.1 hn
      exact ⟨v, hv, (hparent v).symm.trans hp, (hshared v).symm⟩
    · exact ⟨w, hn, hp, rfl⟩
  obtain ⟨v, hv, hvp, hvs⟩ := old
  obtain ⟨hlt, u, hu, hus⟩ := h.above hv hvp
  have hview := m.map_find?_update k hshared p
  rw [hu, Option.map_some, Option.map_eq_some_iff] at hview
  obtain ⟨u', hu', hs'⟩ := hview
  exact ⟨hlt, u', hu', hs'.trans (hus.trans hvs)⟩

theorem refers (h : m.Ranked parent shared) : m.Refers (fun v => (parent v).toList) m := by
  intro k v hv n hn
  obtain ⟨_, w, hw, _⟩ := h.above hv (Option.mem_toList.1 hn)
  exact ⟨w, hw⟩

end Ranked

end PictureSearch.SortedMap

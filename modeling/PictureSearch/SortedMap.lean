/-!
# Sorted maps

A finite map kept as the list of its pairs in strictly increasing key order.  The order is part of
the type, so two maps with the same lookups are the same map, and whatever is written from a map
is written in key order.
-/

namespace PictureSearch

/-- A finite map from `κ` to `υ`: its pairs in strictly increasing order of keys. -/
structure SortedMap (κ υ : Type) [Ord κ] where
  entries : List (κ × υ)
  ascending : entries.Pairwise fun a b => compare a.1 b.1 = .lt

namespace SortedMap

variable {κ υ : Type} [Ord κ]

/-! ## Operations -/

/-- The map without pairs. -/
def empty : SortedMap κ υ := ⟨[], .nil⟩

instance : Inhabited (SortedMap κ υ) := ⟨empty⟩

/-- The value kept under a key. -/
def find? (m : SortedMap κ υ) (k : κ) : Option υ :=
  (m.entries.find? fun e => compare k e.1 == .eq).map (·.2)

def size (m : SortedMap κ υ) : Nat := m.entries.length

def isEmpty (m : SortedMap κ υ) : Bool := m.entries.isEmpty

def keys (m : SortedMap κ υ) : List κ := m.entries.map (·.1)

/-- Puts a pair at its place in a list of pairs, over the pair with the same key if there is one. -/
def place (k : κ) (v : υ) : List (κ × υ) → List (κ × υ)
  | [] => [(k, v)]
  | e :: rest =>
    match compare k e.1 with
    | .lt => (k, v) :: e :: rest
    | .eq => (k, v) :: rest
    | .gt => e :: place k v rest

/-! ## Lemmas -/

theorem mem_of_mem_place {k : κ} {v : υ} {l : List (κ × υ)} {a : κ × υ}
    (h : a ∈ place k v l) : a = (k, v) ∨ a ∈ l := by
  induction l with
  | nil => exact Or.inl (by simpa [place] using h)
  | cons e rest ih =>
    unfold place at h
    split at h
    · rcases List.mem_cons.1 h with h | h
      · exact Or.inl h
      · exact Or.inr h
    · rcases List.mem_cons.1 h with h | h
      · exact Or.inl h
      · exact Or.inr (List.mem_cons_of_mem _ h)
    · rcases List.mem_cons.1 h with h | h
      · exact Or.inr (h ▸ List.mem_cons_self)
      · rcases ih h with h | h
        · exact Or.inl h
        · exact Or.inr (List.mem_cons_of_mem _ h)

theorem place_ascending [Std.TransOrd κ] (k : κ) (v : υ) {l : List (κ × υ)}
    (h : l.Pairwise fun a b => compare a.1 b.1 = .lt) :
    (place k v l).Pairwise fun a b => compare a.1 b.1 = .lt := by
  induction l with
  | nil => simp [place]
  | cons e rest ih =>
    obtain ⟨he, hrest⟩ := List.pairwise_cons.1 h
    unfold place
    split
    · next hlt =>
      refine List.pairwise_cons.2 ⟨fun a ha => ?_, h⟩
      rcases List.mem_cons.1 ha with rfl | ha
      · exact hlt
      · exact Std.TransCmp.lt_trans hlt (he a ha)
    · next heq =>
      exact List.pairwise_cons.2 ⟨fun a ha => Std.TransCmp.lt_of_eq_of_lt heq (he a ha), hrest⟩
    · next hgt =>
      refine List.pairwise_cons.2 ⟨fun a ha => ?_, ih hrest⟩
      rcases mem_of_mem_place ha with rfl | ha
      · exact Std.OrientedCmp.lt_of_gt hgt
      · exact he a ha

/-! ## Operations that keep the order -/

/-- Keeps `v` under `k`, in place of what was there. -/
def insert [Std.TransOrd κ] (m : SortedMap κ υ) (k : κ) (v : υ) : SortedMap κ υ :=
  ⟨place k v m.entries, place_ascending k v m.ascending⟩

/-- Drops the pair with key `k`. -/
def erase (m : SortedMap κ υ) (k : κ) : SortedMap κ υ :=
  ⟨m.entries.filter fun e => compare k e.1 != .eq, m.ascending.filter _⟩

/-- Changes the value kept under `k`, if there is one. -/
def update [Std.TransOrd κ] (m : SortedMap κ υ) (k : κ) (f : υ → υ) : SortedMap κ υ :=
  match m.find? k with
  | some v => m.insert k (f v)
  | none => m

/-- The map of a list of pairs; of several pairs with one key the last counts. -/
def ofList [Std.TransOrd κ] (l : List (κ × υ)) : SortedMap κ υ :=
  l.foldl (fun m e => m.insert e.1 e.2) empty

/-! ## Lookups -/

@[simp] theorem find?_empty (k : κ) : (empty : SortedMap κ υ).find? k = none := rfl

section Lookup

variable [Std.TransOrd κ] [Std.LawfulEqOrd κ]

theorem find?_eq_some_iff {m : SortedMap κ υ} {k : κ} {v : υ} :
    m.find? k = some v ↔ (k, v) ∈ m.entries := by
  obtain ⟨l, h⟩ := m
  simp only [find?, Option.map_eq_some_iff]
  constructor
  · rintro ⟨e, he, rfl⟩
    have hk : k = e.1 := Std.LawfulEqOrd.eq_of_compare (by simpa using List.find?_some he)
    rw [hk]
    exact List.mem_of_find?_eq_some he
  · intro hm
    induction l with
    | nil => cases hm
    | cons e rest ih =>
      obtain ⟨he, hrest⟩ := List.pairwise_cons.1 h
      rcases List.mem_cons.1 hm with rfl | hm
      · exact ⟨(k, v), by simp, rfl⟩
      · have hlt : compare e.1 k = .lt := he (k, v) hm
        have hgt : compare k e.1 = .gt := Std.OrientedCmp.gt_of_lt hlt
        obtain ⟨f, hf, hv⟩ := ih hrest hm
        exact ⟨f, by simpa [List.find?_cons, hgt] using hf, hv⟩

theorem mem_place_iff {k : κ} {v : υ} {l : List (κ × υ)}
    (h : l.Pairwise fun a b => compare a.1 b.1 = .lt) {a : κ × υ} :
    a ∈ place k v l ↔ a = (k, v) ∨ a.1 ≠ k ∧ a ∈ l := by
  induction l with
  | nil => simp [place]
  | cons e rest ih =>
    obtain ⟨he, hrest⟩ := List.pairwise_cons.1 h
    have ne_of_lt {b c : κ} (hlt : compare b c = .lt) : b ≠ c := by
      rintro rfl
      simp at hlt
    unfold place
    split
    · next hlt =>
      have hall : ∀ b ∈ e :: rest, b.1 ≠ k := by
        intro b hb
        rcases List.mem_cons.1 hb with rfl | hb
        · exact (ne_of_lt hlt).symm
        · exact (ne_of_lt (Std.TransCmp.lt_trans hlt (he b hb))).symm
      rw [List.mem_cons]
      constructor
      · rintro (ha | ha)
        · exact Or.inl ha
        · exact Or.inr ⟨hall a ha, ha⟩
      · rintro (ha | ⟨_, ha⟩)
        · exact Or.inl ha
        · exact Or.inr ha
    · next heq =>
      have hk : k = e.1 := Std.LawfulEqOrd.eq_of_compare heq
      have hall : ∀ b ∈ rest, b.1 ≠ k := by
        intro b hb
        rw [hk]
        exact (ne_of_lt (he b hb)).symm
      rw [List.mem_cons, List.mem_cons]
      constructor
      · rintro (ha | ha)
        · exact Or.inl ha
        · exact Or.inr ⟨hall a ha, Or.inr ha⟩
      · rintro (ha | ⟨hne, rfl | ha⟩)
        · exact Or.inl ha
        · exact absurd hk.symm hne
        · exact Or.inr ha
    · next hgt =>
      have hne : e.1 ≠ k := ne_of_lt (Std.OrientedCmp.lt_of_gt hgt)
      rw [List.mem_cons, List.mem_cons, ih hrest]
      constructor
      · rintro (rfl | ha | ⟨ha, hm⟩)
        · exact Or.inr ⟨hne, Or.inl rfl⟩
        · exact Or.inl ha
        · exact Or.inr ⟨ha, Or.inr hm⟩
      · rintro (ha | ⟨ha, rfl | hm⟩)
        · exact Or.inr (Or.inl ha)
        · exact Or.inl rfl
        · exact Or.inr (Or.inr ⟨ha, hm⟩)

theorem mem_keys_iff {m : SortedMap κ υ} {k : κ} : k ∈ m.keys ↔ ∃ v, m.find? k = some v := by
  simp only [keys, List.mem_map, find?_eq_some_iff]
  constructor
  · rintro ⟨⟨k, v⟩, he, rfl⟩
    exact ⟨v, he⟩
  · rintro ⟨v, he⟩
    exact ⟨(k, v), he, rfl⟩

/-- Two maps with the same lookups are the same map. -/
theorem ext_find? {m n : SortedMap κ υ} (h : ∀ k, m.find? k = n.find? k) : m = n := by
  have hmem : ∀ a, a ∈ m.entries ↔ a ∈ n.entries := by
    rintro ⟨k, v⟩
    rw [← find?_eq_some_iff, ← find?_eq_some_iff, h k]
  obtain ⟨l, hl⟩ := m
  obtain ⟨l', hl'⟩ := n
  congr 1
  have irrefl : ∀ a : κ × υ, compare a.1 a.1 ≠ .lt := by simp
  have nodup {l : List (κ × υ)} (hl : l.Pairwise fun a b => compare a.1 b.1 = .lt) : l.Nodup := by
    refine List.nodup_iff_pairwise_ne.2 (hl.imp fun hab => ?_)
    rintro rfl
    exact irrefl _ hab
  have hperm : l.Perm l' := (List.perm_ext_iff_of_nodup (nodup hl) (nodup hl')).2 hmem
  refine hperm.eq_of_pairwise (fun a b _ _ hab hba => ?_) hl hl'
  exact absurd (Std.TransCmp.lt_trans hab hba) (irrefl a)

@[simp] theorem find?_insert_self (m : SortedMap κ υ) (k : κ) (v : υ) :
    (m.insert k v).find? k = some v :=
  find?_eq_some_iff.2 ((mem_place_iff m.ascending).2 (Or.inl rfl))

theorem entries_insert_ne_nil (m : SortedMap κ υ) (k : κ) (v : υ) : (m.insert k v).entries ≠ [] :=
  List.ne_nil_of_mem (find?_eq_some_iff.1 (find?_insert_self m k v))

theorem find?_insert_of_ne (m : SortedMap κ υ) {k k' : κ} (v : υ) (h : k' ≠ k) :
    (m.insert k v).find? k' = m.find? k' := by
  ext w
  rw [find?_eq_some_iff, find?_eq_some_iff]
  exact (mem_place_iff m.ascending).trans (by simp [h])

theorem find?_insert [DecidableEq κ] (m : SortedMap κ υ) (k : κ) (v : υ) (k' : κ) :
    (m.insert k v).find? k' = if k' = k then some v else m.find? k' := by
  split
  · next h => rw [h, find?_insert_self]
  · next h => exact find?_insert_of_ne m v h

@[simp] theorem find?_erase_self (m : SortedMap κ υ) (k : κ) : (m.erase k).find? k = none := by
  cases hf : (m.erase k).find? k with
  | none => rfl
  | some v => simpa [erase] using find?_eq_some_iff.1 hf

theorem find?_erase_of_ne (m : SortedMap κ υ) {k k' : κ} (h : k' ≠ k) :
    (m.erase k).find? k' = m.find? k' := by
  ext w
  rw [find?_eq_some_iff, find?_eq_some_iff]
  have hne : compare k k' ≠ .eq := fun e => h (Std.LawfulEqOrd.eq_of_compare e).symm
  simp [erase, hne]

theorem find?_erase [DecidableEq κ] (m : SortedMap κ υ) (k k' : κ) :
    (m.erase k).find? k' = if k' = k then none else m.find? k' := by
  split
  · next h => rw [h, find?_erase_self]
  · next h => exact find?_erase_of_ne m h

/-- Dropping a key that is not there changes nothing. -/
theorem erase_of_find?_eq_none {m : SortedMap κ υ} {k : κ} (h : m.find? k = none) :
    m.erase k = m := by
  apply ext_find?
  intro k'
  by_cases hk : k' = k
  · rw [hk, find?_erase_self, h]
  · exact find?_erase_of_ne m hk

/-- Keeping what is kept already changes nothing. -/
theorem insert_of_find?_eq_some {m : SortedMap κ υ} {k : κ} {v : υ} (h : m.find? k = some v) :
    m.insert k v = m := by
  apply ext_find?
  intro k'
  by_cases hk : k' = k
  · rw [hk, find?_insert_self, h]
  · exact find?_insert_of_ne m v hk

theorem find?_update_self (m : SortedMap κ υ) (k : κ) (f : υ → υ) :
    (m.update k f).find? k = (m.find? k).map f := by
  unfold update
  cases h : m.find? k <;> simp [h]

theorem find?_update_of_ne (m : SortedMap κ υ) {k k' : κ} (f : υ → υ) (h : k' ≠ k) :
    (m.update k f).find? k' = m.find? k' := by
  unfold update
  cases m.find? k with
  | none => rfl
  | some v => exact find?_insert_of_ne m (f v) h

end Lookup

/-! ## Maps of lists -/

theorem entries_inj {m n : SortedMap κ υ} (h : m.entries = n.entries) : m = n := by
  cases m
  cases n
  congr

/-- A pair with a key past all others goes to the end. -/
theorem place_of_forall_gt {k : κ} {l : List (κ × υ)} (h : ∀ e ∈ l, compare k e.1 = .gt) (v : υ) :
    place k v l = l ++ [(k, v)] := by
  induction l with
  | nil => rfl
  | cons e rest ih =>
    rw [place, h e List.mem_cons_self]
    simp only [List.cons_append]
    rw [ih fun a ha => h a (List.mem_cons_of_mem _ ha)]

theorem length_place_le (k : κ) (v : υ) (l : List (κ × υ)) :
    (place k v l).length ≤ l.length + 1 := by
  induction l with
  | nil => exact Nat.le_refl 1
  | cons e rest ih =>
    unfold place
    split
    · exact Nat.le_refl _
    · exact Nat.le_succ _
    · exact Nat.succ_le_succ ih

section OfList

variable [Std.TransOrd κ]

/-- Pairs in increasing order of keys, all past those of a map, go to its end one by one. -/
theorem entries_foldl_insert {m : SortedMap κ υ} {l : List (κ × υ)}
    (h : (m.entries ++ l).Pairwise fun a b => compare a.1 b.1 = .lt) :
    (l.foldl (fun m e => m.insert e.1 e.2) m).entries = m.entries ++ l := by
  induction l generalizing m with
  | nil => exact (List.append_nil _).symm
  | cons e rest ih =>
    have hgt : ∀ a ∈ m.entries, compare e.1 a.1 = .gt := fun a ha =>
      Std.OrientedCmp.gt_of_lt ((List.pairwise_append.1 h).2.2 a ha e List.mem_cons_self)
    have hentries : (m.insert e.1 e.2).entries = m.entries ++ [e] := place_of_forall_gt hgt e.2
    have hsplit : m.entries ++ e :: rest = (m.insert e.1 e.2).entries ++ rest := by
      rw [hentries, List.append_assoc, List.singleton_append]
    rw [List.foldl_cons, hsplit]
    exact ih (hsplit ▸ h)

/-- A map is that of its pairs. -/
theorem ofList_entries (m : SortedMap κ υ) : ofList m.entries = m := by
  apply entries_inj
  exact entries_foldl_insert m.ascending

theorem mem_of_mem_foldl_insert {m : SortedMap κ υ} {l : List (κ × υ)} {a : κ × υ}
    (h : a ∈ (l.foldl (fun m e => m.insert e.1 e.2) m).entries) : a ∈ m.entries ∨ a ∈ l := by
  induction l generalizing m with
  | nil => exact Or.inl h
  | cons e rest ih =>
    rcases ih h with h | h
    · rcases mem_of_mem_place h with rfl | h
      · exact Or.inr List.mem_cons_self
      · exact Or.inl h
    · exact Or.inr (List.mem_cons_of_mem _ h)

theorem size_foldl_insert_le (m : SortedMap κ υ) (l : List (κ × υ)) :
    (l.foldl (fun m e => m.insert e.1 e.2) m).size ≤ m.size + l.length := by
  induction l generalizing m with
  | nil => exact Nat.le_refl _
  | cons e rest ih =>
    have hrest := ih (m.insert e.1 e.2)
    have hone : (m.insert e.1 e.2).size ≤ m.size + 1 := length_place_le e.1 e.2 m.entries
    rw [List.length_cons]
    exact Nat.le_trans hrest (by omega)

theorem mem_of_mem_ofList {l : List (κ × υ)} {a : κ × υ} (h : a ∈ (ofList l).entries) : a ∈ l :=
  (mem_of_mem_foldl_insert h).resolve_left List.not_mem_nil

theorem size_ofList_le (l : List (κ × υ)) : (ofList l).size ≤ l.length :=
  Nat.le_trans (size_foldl_insert_le empty l) (Nat.le_of_eq (Nat.zero_add _))

end OfList

/-! ## Free keys -/

/-- The least number from `n` on that is no key of a list of pairs in increasing key order. -/
def firstFree (n : Nat) : List (Nat × υ) → Nat
  | [] => n
  | e :: rest => if e.1 = n then firstFree (n + 1) rest else n

theorem le_firstFree (n : Nat) (l : List (Nat × υ)) : n ≤ firstFree n l := by
  induction l generalizing n with
  | nil => exact Nat.le_refl n
  | cons e rest ih =>
    unfold firstFree
    split
    · exact Nat.le_of_succ_le (ih (n + 1))
    · exact Nat.le_refl n

/-- The least number that is no key; where the keys have no gaps, the number of entries. -/
def freshKey (m : SortedMap Nat υ) : Nat := firstFree 0 m.entries

theorem firstFree_not_mem {n : Nat} {l : List (Nat × υ)}
    (h : l.Pairwise fun a b => compare a.1 b.1 = .lt) (hn : ∀ a ∈ l, n ≤ a.1) :
    ∀ a ∈ l, a.1 ≠ firstFree n l := by
  induction l generalizing n with
  | nil => simp
  | cons e rest ih =>
    obtain ⟨he, hrest⟩ := List.pairwise_cons.1 h
    have hlt : ∀ a ∈ rest, e.1 < a.1 := fun a ha => Nat.compare_eq_lt.1 (he a ha)
    unfold firstFree
    split
    · next heq =>
      have hle : ∀ a ∈ rest, n + 1 ≤ a.1 := fun a ha => by
        have := hlt a ha
        omega
      have hfree : n + 1 ≤ firstFree (n + 1) rest := le_firstFree (n + 1) rest
      intro a ha
      rcases List.mem_cons.1 ha with rfl | ha
      · omega
      · exact ih hrest hle a ha
    · next hne =>
      have := hn e List.mem_cons_self
      intro a ha
      rcases List.mem_cons.1 ha with rfl | ha
      · exact hne
      · have := hlt a ha
        omega

/-- The fresh key is no key. -/
theorem find?_freshKey (m : SortedMap Nat υ) : m.find? m.freshKey = none := by
  cases h : m.find? m.freshKey with
  | none => rfl
  | some v =>
    exact absurd rfl (firstFree_not_mem m.ascending (by simp) _ (find?_eq_some_iff.1 h))

end SortedMap

end PictureSearch

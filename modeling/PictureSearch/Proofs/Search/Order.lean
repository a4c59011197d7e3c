import PictureSearch.Proofs.Search.Noninterference

/-!
# The order of a result

A key puts one picture before another by their names or by a number, and pictures that it does not
tell apart go by their own numbers.  Among the pictures of a catalog this is a strict order in which
every two stand one before the other, so a result that is not cut to a page can be arranged in one
way only, and the descending result is that arrangement read backwards:

    l.Perm (c.matching p) → l.IsChain (c.Precedes key) →
      l = c.ids ⟨p, key, .ascending, 0, none⟩                                (eq_ids_of_isChain)
    c.ids ⟨p, key, .descending, 0, none⟩ =
      (c.ids ⟨p, key, .ascending, 0, none⟩).reverse                          (ids_descending)

It holds of every catalog, whatever payload it was read from: the pictures found exist.
-/

namespace PictureSearch

/-! ## Statements -/

/-- The key puts a picture before another. -/
def OrderKey.Before (key : OrderKey) (x y : Item) : Prop :=
  match key with
  | .name => Text.Precedes x.name y.name
  | .rating => x.rating.toNat < y.rating.toNat
  | .width => x.width.toNat < y.width.toNat
  | .height => x.height.toNat < y.height.toNat
  | .size => x.size.toNat < y.size.toNat
  | .id => False

/-- The key does not tell two pictures apart. -/
def OrderKey.Alike (key : OrderKey) (x y : Item) : Prop :=
  match key with
  | .name => x.name = y.name
  | .rating => x.rating = y.rating
  | .width => x.width = y.width
  | .height => x.height = y.height
  | .size => x.size = y.size
  | .id => True

/-- A relation puts the elements of a list in a strict order in which any two can be compared. -/
structure StrictTotalOn {α : Type} (l : List α) (r : α → α → Prop) : Prop where
  irrefl : ∀ a ∈ l, ¬ r a a
  trans : ∀ a ∈ l, ∀ b ∈ l, ∀ c ∈ l, r a b → r b c → r a c
  total : ∀ a ∈ l, ∀ b ∈ l, r a b ∨ a = b ∨ r b a

namespace Catalog

/-- Of two pictures the first comes before the second, by the key or else by its number. -/
def Precedes (c : Catalog) (key : OrderKey) (a b : ItemId) : Prop :=
  ∃ x y, c.item? a = some x ∧ c.item? b = some y ∧
    (key.Before x y ∨ key.Alike x y ∧ a.index < b.index)

end Catalog

/-! ## Lemmas: sorting -/

namespace StrictTotalOn

variable {α : Type} {l : List α} {r : α → α → Prop} (hr : StrictTotalOn l r)

include hr

theorem asymm {a b : α} (ha : a ∈ l) (hb : b ∈ l) (hab : r a b) : ¬ r b a := fun hba =>
  hr.irrefl a ha (hr.trans a ha b hb a ha hab hba)

/-- Sorting arranges a list by an order on its elements, whatever the order is elsewhere. -/
theorem pairwise_mergeSort {le : α → α → Bool}
    (hle : ∀ a ∈ l, ∀ b ∈ l, (le a b = true ↔ ¬ r b a)) (hl : l.Nodup) :
    (l.mergeSort le).Pairwise r := by
  have hsort : (l.attach.mergeSort fun a b => le a b).map Subtype.val = l.mergeSort le := by
    have hmap := List.map_mergeSort (r := fun a b : {a // a ∈ l} => le a b) (s := le)
      (f := Subtype.val) (l := l.attach) fun _ _ _ _ => rfl
    rw [hmap, List.attach_map_subtype_val]
  have hsorted : (l.mergeSort le).Pairwise fun a b => le a b = true := by
    rw [← hsort, List.pairwise_map]
    apply List.pairwise_mergeSort
    · rintro ⟨a, ha⟩ ⟨b, hb⟩ ⟨d, hd⟩ hab hbd
      rw [hle a ha b hb] at hab
      rw [hle b hb d hd] at hbd
      rw [hle a ha d hd]
      intro hda
      rcases hr.total a ha b hb with h | rfl | h
      · exact hbd (hr.trans d hd a ha b hb hda h)
      · exact hbd hda
      · exact hab h
    · rintro ⟨a, ha⟩ ⟨b, hb⟩
      rw [Bool.or_eq_true, hle a ha b hb, hle b hb a ha, ← not_and_or]
      rintro ⟨hba, hab⟩
      exact hr.asymm ha hb hab hba
  have hperm := List.mergeSort_perm l le
  refine (hsorted.and (hperm.nodup_iff.2 hl)).imp_of_mem ?_
  rintro a b ha hb ⟨hab, hne⟩
  have ha := hperm.mem_iff.1 ha
  have hb := hperm.mem_iff.1 hb
  rcases hr.total a ha b hb with h | h | h
  · exact h
  · exact absurd h hne
  · exact absurd h ((hle a ha b hb).1 hab)

/-- A list has one arrangement. -/
theorem eq_of_perm {xs ys : List α} (hx : xs.Perm l) (hy : ys.Perm l) (hxs : xs.Pairwise r)
    (hys : ys.Pairwise r) : xs = ys := by
  refine List.Perm.eq_of_pairwise (fun a b ha hb hab hba => ?_) hxs hys (hx.trans hy.symm)
  exact absurd hba (hr.asymm (hx.mem_iff.1 ha) (hy.mem_iff.1 hb) hab)

end StrictTotalOn

/-! ## Lemmas: keys -/

instance (key : OrderKey) : Std.TransCmp key.compareItems := by
  cases key with
  | name => exact inferInstanceAs (Std.TransCmp (compareOn Item.name))
  | rating => exact inferInstanceAs (Std.TransCmp (compareOn Item.rating))
  | width => exact inferInstanceAs (Std.TransCmp (compareOn Item.width))
  | height => exact inferInstanceAs (Std.TransCmp (compareOn Item.height))
  | size => exact inferInstanceAs (Std.TransCmp (compareOn Item.size))
  | id => exact inferInstanceAs (Std.TransCmp (compareOn fun _ : Item => ()))

theorem OrderKey.before_iff {key : OrderKey} {x y : Item} :
    key.Before x y ↔ key.compareItems x y = .lt := by
  cases key with
  | name => exact (Catalog.compare_text_eq_lt_iff _ _).symm
  | rating => exact UInt8.lt_iff_toNat_lt.symm.trans compareOfLessAndEq_eq_lt.symm
  | width | height => exact UInt32.lt_iff_toNat_lt.symm.trans compareOfLessAndEq_eq_lt.symm
  | size => exact UInt64.lt_iff_toNat_lt.symm.trans compareOfLessAndEq_eq_lt.symm
  | id => simp [Before, compareItems]

theorem OrderKey.alike_iff {key : OrderKey} {x y : Item} :
    key.Alike x y ↔ key.compareItems x y = .eq := by
  cases key with
  | name | rating | width | height | size => exact Std.compare_eq_iff_eq.symm
  | id => simp [Alike, compareItems]

/-! ## Lemmas: the order of numbers -/

namespace Catalog

section Pictures

variable {c : Catalog} {key : OrderKey} {direction : Direction} {a b d : ItemId} {x y : Item}

theorem precedes_iff (ha : c.item? a = some x) (hb : c.item? b = some y) :
    c.Precedes key a b ↔ c.compareIds key .ascending a b = .lt := by
  simp [Precedes, compareIds, ha, hb, OrderKey.before_iff, OrderKey.alike_iff,
    Ordering.then_eq_lt, Nat.compare_eq_lt]

theorem Precedes.trans (h : c.Precedes key a b) (h' : c.Precedes key b d) :
    c.Precedes key a d := by
  obtain ⟨x, y, hx, hy, hxy⟩ := h
  obtain ⟨y', z, hy', hz, hyz⟩ := h'
  rw [hy] at hy'
  cases hy'
  simp only [OrderKey.before_iff, OrderKey.alike_iff] at hxy hyz
  refine ⟨x, z, hx, hz, ?_⟩
  rw [OrderKey.before_iff, OrderKey.alike_iff]
  rcases hxy with hxy | ⟨hxy, hab⟩
  · rcases hyz with hyz | ⟨hyz, _⟩
    · exact .inl (Std.TransCmp.lt_trans hxy hyz)
    · exact .inl (Std.TransCmp.lt_of_lt_of_eq hxy hyz)
  · rcases hyz with hyz | ⟨hyz, hbd⟩
    · exact .inl (Std.TransCmp.lt_of_eq_of_lt hxy hyz)
    · exact .inr ⟨Std.TransCmp.eq_trans hxy hyz, Nat.lt_trans hab hbd⟩

theorem not_precedes_self : ¬ c.Precedes key a a := by
  rintro ⟨x, y, hx, hy, h | ⟨_, h⟩⟩
  · rw [hx] at hy
    cases hy
    have heq : key.compareItems x x = .eq := Std.ReflCmp.compare_self
    rw [OrderKey.before_iff, heq] at h
    cases h
  · exact Nat.lt_irrefl _ h

theorem precedes_or_eq_or_precedes (ha : c.item? a = some x) (hb : c.item? b = some y) :
    c.Precedes key a b ∨ a = b ∨ c.Precedes key b a := by
  rcases hc : key.compareItems x y with _ | _ | _
  · exact .inl ⟨x, y, ha, hb, .inl (OrderKey.before_iff.2 hc)⟩
  · rcases Nat.lt_trichotomy a.index b.index with h | h | h
    · exact .inl ⟨x, y, ha, hb, .inr ⟨OrderKey.alike_iff.2 hc, h⟩⟩
    · exact .inr (.inl (congrArg ItemId.mk h))
    · have hc := Std.OrientedCmp.eq_symm hc
      exact .inr (.inr ⟨y, x, hb, ha, .inr ⟨OrderKey.alike_iff.2 hc, h⟩⟩)
  · have hc := Std.OrientedCmp.lt_of_gt hc
    exact .inr (.inr ⟨y, x, hb, ha, .inl (OrderKey.before_iff.2 hc)⟩)

theorem swap_compareIds (ha : c.item? a = some x) (hb : c.item? b = some y) :
    (c.compareIds key direction a b).swap = c.compareIds key direction b a := by
  cases direction <;> simp only [compareIds, ha, hb, Ordering.swap_then] <;>
    simp only [← Std.OrientedCmp.eq_swap]

/-! ## Lemmas: the order of a result -/

/-- Of two pictures the first comes before the second in a result of a direction. -/
def Goes (c : Catalog) (key : OrderKey) (direction : Direction) (a b : ItemId) : Prop :=
  match direction with
  | .ascending => c.Precedes key a b
  | .descending => c.Precedes key b a

theorem goes_iff (ha : c.item? a = some x) (hb : c.item? b = some y) :
    c.Goes key direction a b ↔ c.compareIds key direction a b = .lt := by
  cases direction with
  | ascending => exact precedes_iff ha hb
  | descending =>
    change c.Precedes key b a ↔ (c.compareIds key .ascending a b).swap = .lt
    rw [swap_compareIds ha hb]
    exact precedes_iff hb ha

theorem Goes.trans (h : c.Goes key direction a b) (h' : c.Goes key direction b d) :
    c.Goes key direction a d := by
  cases direction with
  | ascending => exact Precedes.trans h h'
  | descending => exact Precedes.trans h' h

theorem not_goes_self : ¬ c.Goes key direction a a := by
  cases direction <;> exact not_precedes_self

theorem goes_or_eq_or_goes (ha : c.item? a = some x) (hb : c.item? b = some y) :
    c.Goes key direction a b ∨ a = b ∨ c.Goes key direction b a := by
  cases direction with
  | ascending => exact precedes_or_eq_or_precedes ha hb
  | descending =>
    rcases precedes_or_eq_or_precedes ha hb with h | h | h
    · exact .inr (.inr h)
    · exact .inr (.inl h)
    · exact .inl h

theorem isLE_compareIds_iff (ha : c.item? a = some x) (hb : c.item? b = some y) :
    (c.compareIds key direction a b).isLE = true ↔ ¬ c.Goes key direction b a := by
  rw [goes_iff hb ha, ← swap_compareIds ha hb]
  cases c.compareIds key direction a b <;> simp

end Pictures

section Result

variable (c : Catalog) (p : Predicate) (key : OrderKey) (direction : Direction)

theorem goes_iff_of_mem_matching {a b : ItemId} (ha : a ∈ c.matching p) (hb : b ∈ c.matching p) :
    c.Goes key direction a b ↔ c.compareIds key direction a b = .lt := by
  obtain ⟨⟨x, hx⟩, _⟩ := (c.mem_matching_iff p a).1 ha
  obtain ⟨⟨y, hy⟩, _⟩ := (c.mem_matching_iff p b).1 hb
  exact goes_iff hx hy

theorem strictTotalOn_goes : StrictTotalOn (c.matching p) (c.Goes key direction) where
  irrefl _ _ := not_goes_self
  trans _ _ _ _ _ _ := Goes.trans
  total a ha b hb := by
    obtain ⟨⟨x, hx⟩, _⟩ := (c.mem_matching_iff p a).1 ha
    obtain ⟨⟨y, hy⟩, _⟩ := (c.mem_matching_iff p b).1 hb
    exact goes_or_eq_or_goes hx hy

theorem strictTotalOn_compareIds :
    StrictTotalOn (c.matching p) fun a b => c.compareIds key direction a b = .lt := by
  have hgoes {a b : ItemId} := c.goes_iff_of_mem_matching p key direction (a := a) (b := b)
  have hr := c.strictTotalOn_goes p key direction
  constructor
  · intro a ha
    rw [← hgoes ha ha]
    exact hr.irrefl a ha
  · intro a ha b hb d hd
    rw [← hgoes ha hb, ← hgoes hb hd, ← hgoes ha hd]
    exact hr.trans a ha b hb d hd
  · intro a ha b hb
    rw [← hgoes ha hb, ← hgoes hb ha]
    exact hr.total a ha b hb

theorem ids_perm_matching : (c.ids ⟨p, key, direction, 0, none⟩).Perm (c.matching p) :=
  c.sorted_perm_matching ⟨p, key, direction, 0, none⟩

theorem ids_pairwise_goes :
    (c.ids ⟨p, key, direction, 0, none⟩).Pairwise (c.Goes key direction) := by
  have hnodup : (c.matching p).Nodup :=
    (c.sorted_perm_matching ⟨p, key, direction, 0, none⟩).nodup_iff.1 (c.nodup_sorted _)
  refine (c.strictTotalOn_goes p key direction).pairwise_mergeSort (fun a ha b hb => ?_) hnodup
  obtain ⟨⟨x, hx⟩, _⟩ := (c.mem_matching_iff p a).1 ha
  obtain ⟨⟨y, hy⟩, _⟩ := (c.mem_matching_iff p b).1 hb
  exact isLE_compareIds_iff hx hy

theorem ids_descending :
    c.ids ⟨p, key, .descending, 0, none⟩ = (c.ids ⟨p, key, .ascending, 0, none⟩).reverse := by
  refine (c.strictTotalOn_goes p key .descending).eq_of_perm (c.ids_perm_matching p key _)
    ((List.reverse_perm _).trans (c.ids_perm_matching p key _))
    (c.ids_pairwise_goes p key .descending) ?_
  exact List.pairwise_reverse.2 (c.ids_pairwise_goes p key .ascending)

end Result

/-- Where each picture comes before the next, there is nothing left to choose. -/
theorem eq_ids_of_isChain {c : Catalog} {p : Predicate} {key : OrderKey} {l : List ItemId}
    (hp : l.Perm (c.matching p)) (hl : l.IsChain (c.Precedes key)) :
    l = c.ids ⟨p, key, .ascending, 0, none⟩ := by
  have : Trans (c.Precedes key) (c.Precedes key) (c.Precedes key) := ⟨Precedes.trans⟩
  exact (c.strictTotalOn_goes p key .ascending).eq_of_perm hp (c.ids_perm_matching p key _)
    hl.pairwise (c.ids_pairwise_goes p key .ascending)

/-! ## Top theorem -/

/-- **A result is the one arrangement of what is found.** What is found is in a strict order by the
key and then by number, the result of either direction holds it without loss or addition, the
ascending one is the only list of it in which each picture comes before the next, and the
descending one is that list backwards. -/
theorem ids_unique_arrangement (c : Catalog) (p : Predicate) (key : OrderKey) :
    (∀ direction,
      StrictTotalOn (c.matching p) fun a b => c.compareIds key direction a b = .lt) ∧
    (∀ a ∈ c.matching p, ∀ b ∈ c.matching p,
      (c.compareIds key .ascending a b = .lt ↔ c.Precedes key a b)) ∧
    (∀ direction, (c.ids ⟨p, key, direction, 0, none⟩).Perm (c.matching p)) ∧
    (c.ids ⟨p, key, .ascending, 0, none⟩).Pairwise (c.Precedes key) ∧
    (∀ l, l.Perm (c.matching p) → l.IsChain (c.Precedes key) →
      l = c.ids ⟨p, key, .ascending, 0, none⟩) ∧
    c.ids ⟨p, key, .descending, 0, none⟩ = (c.ids ⟨p, key, .ascending, 0, none⟩).reverse := by
  refine ⟨c.strictTotalOn_compareIds p key, fun a ha b hb => ?_, c.ids_perm_matching p key,
    c.ids_pairwise_goes p key .ascending, fun l => eq_ids_of_isChain, c.ids_descending p key⟩
  exact (c.goes_iff_of_mem_matching p key .ascending ha hb).symm

/-- Two pictures of one rating go by number, and backwards when descending. -/
theorem ids_unique_arrangement_tie :
    ([⟨0⟩, ⟨1⟩] : List ItemId).Perm (withSmall.matching .all) ∧
      ([⟨0⟩, ⟨1⟩] : List ItemId).IsChain (withSmall.Precedes .rating) ∧
      withSmall.ids ⟨.all, .rating, .ascending, 0, none⟩ = [⟨0⟩, ⟨1⟩] ∧
      withSmall.ids ⟨.all, .rating, .descending, 0, none⟩ = [⟨1⟩, ⟨0⟩] := by
  have hperm : ([⟨0⟩, ⟨1⟩] : List ItemId).Perm (withSmall.matching .all) := by decide +kernel
  have hchain : ([⟨0⟩, ⟨1⟩] : List ItemId).IsChain (withSmall.Precedes .rating) :=
    .cons_cons ⟨_, _, rfl, rfl, .inr ⟨rfl, by decide⟩⟩ (.singleton _)
  obtain ⟨-, -, -, -, hunique, hreverse⟩ := ids_unique_arrangement withSmall .all .rating
  have hids := hunique _ hperm hchain
  exact ⟨hperm, hchain, hids.symm, by rw [hreverse, ← hids]; rfl⟩

end Catalog

end PictureSearch

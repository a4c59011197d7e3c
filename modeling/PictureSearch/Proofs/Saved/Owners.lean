import PictureSearch.Saved.Searches

/-!
# Owners without searches

An owner goes with the last of its searches, so none is ever left without by a call.  A file may
name one all the same; it is seen nowhere, and it goes when a search of it is looked for in vain:

    ¬ (s.remove owner name).1.Bare owner                                       (not_bare_remove)
    s.get? owner name = none → ¬ s.Bare owner → (s.remove owner name).1 = s     (remove_of_missing)
    s.Bare owner → (s.remove owner name).1 = s.without owner                       (remove_of_bare)
    s.Bare owner → (s.without owner).get? other name = s.get? other name            (get?_without)
-/

namespace PictureSearch.SavedSearches

variable {s : SavedSearches} {owner : UInt64}

/-- The owner is kept, but without a search. -/
def Bare (s : SavedSearches) (owner : UInt64) : Prop := s.owners.find? owner = some .empty

def without (s : SavedSearches) (owner : UInt64) : SavedSearches := ⟨s.owners.erase owner⟩

/-! ## Lemmas: what an owner has -/

theorem ownedBy_insert (s : SavedSearches) (owner other : UInt64) (m : SortedMap String String) :
    ownedBy ⟨s.owners.insert owner m⟩ other = if other = owner then m else s.ownedBy other := by
  unfold ownedBy
  rw [SortedMap.find?_insert]
  split <;> rfl

theorem ownedBy_erase (s : SavedSearches) (owner other : UInt64) :
    ownedBy ⟨s.owners.erase owner⟩ other = if other = owner then .empty else s.ownedBy other := by
  unfold ownedBy
  rw [SortedMap.find?_erase]
  split <;> rfl

theorem ownedBy_remove (s : SavedSearches) (owner other : UInt64) (name : String) :
    (s.remove owner name).1.ownedBy other =
      if other = owner then (s.ownedBy owner).erase name else s.ownedBy other := by
  show ownedBy ⟨if ((s.ownedBy owner).erase name).isEmpty then _ else _⟩ other = _
  by_cases h : ((s.ownedBy owner).erase name).isEmpty = true
  · have hempty : (s.ownedBy owner).erase name = .empty :=
      SortedMap.entries_inj (List.isEmpty_iff.1 h)
    rw [if_pos h, ownedBy_erase, hempty]
  · rw [if_neg h, ownedBy_insert]

theorem ownedBy_of_find? {m : SortedMap String String} (h : s.owners.find? owner = some m) :
    s.ownedBy owner = m := by
  unfold ownedBy
  rw [h]
  rfl

theorem ownedBy_of_none (h : s.owners.find? owner = none) : s.ownedBy owner = .empty := by
  unfold ownedBy
  rw [h]
  rfl

/-! ## Lemmas: bare owners -/

theorem bare_of_isEmpty (h : (s.owners.find? owner).any (·.isEmpty) = true) : s.Bare owner := by
  obtain ⟨m, hm, hempty⟩ := (Option.any_eq_true _ _).1 h
  exact hm.trans (congrArg some (SortedMap.entries_inj (List.isEmpty_iff.1 hempty)))

theorem not_bare_insert {m : SortedMap String String} (hm : m.entries ≠ []) :
    ¬ Bare ⟨s.owners.insert owner m⟩ owner := by
  unfold Bare
  rw [SortedMap.find?_insert_self]
  rintro ⟨⟩
  exact hm rfl

theorem not_bare_save {t : SavedSearches} {name query : String} {previous : Option String}
    (h : s.save owner name query = .ok (t, previous)) : ¬ t.Bare owner := by
  unfold save at h
  split at h
  · cases h
  · cases h
    exact not_bare_insert (SortedMap.entries_insert_ne_nil _ _ _)

theorem not_bare_remove (s : SavedSearches) (owner : UInt64) (name : String) :
    ¬ (s.remove owner name).1.Bare owner := by
  show ¬ Bare ⟨if ((s.ownedBy owner).erase name).isEmpty then _ else _⟩ owner
  by_cases h : ((s.ownedBy owner).erase name).isEmpty = true
  · rw [if_pos h]
    unfold Bare
    rw [SortedMap.find?_erase_self]
    exact nofun
  · rw [if_neg h]
    exact not_bare_insert fun hnil => h (List.isEmpty_iff.2 hnil)

theorem remove_of_missing {name : String} (h : s.get? owner name = none) (hbare : ¬ s.Bare owner) :
    (s.remove owner name).1 = s := by
  have hrest : (s.ownedBy owner).erase name = s.ownedBy owner :=
    SortedMap.erase_of_find?_eq_none h
  show mk (if ((s.ownedBy owner).erase name).isEmpty then _ else s.owners.insert owner _) = s
  rw [hrest]
  cases hfind : s.owners.find? owner with
  | none =>
    rw [ownedBy_of_none hfind]
    exact congrArg mk (SortedMap.erase_of_find?_eq_none hfind)
  | some m =>
    rw [ownedBy_of_find? hfind]
    have hm : m.isEmpty ≠ true := by
      intro hm
      refine hbare (bare_of_isEmpty ?_)
      rwa [hfind]
    rw [if_neg hm]
    exact congrArg mk (SortedMap.insert_of_find?_eq_some hfind)

theorem remove_of_bare (h : s.Bare owner) (name : String) :
    (s.remove owner name).1 = s.without owner := by
  show mk (if ((s.ownedBy owner).erase name).isEmpty then _ else _) = _
  rw [ownedBy_of_find? h]
  rfl

theorem not_bare_without (s : SavedSearches) (owner : UInt64) : ¬ (s.without owner).Bare owner := by
  unfold Bare without
  rw [SortedMap.find?_erase_self]
  exact nofun

theorem get?_without (h : s.Bare owner) (other : UInt64) (name : String) :
    (s.without owner).get? other name = s.get? other name := by
  unfold get? without
  rw [ownedBy_erase]
  split
  · next ho => rw [ho, ownedBy_of_find? h]
  · rfl

end PictureSearch.SavedSearches

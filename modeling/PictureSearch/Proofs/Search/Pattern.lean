import PictureSearch.Search.Pattern

/-!
# What patterns match

`Matches` says by rules what it is for a pattern to match a text.  The table that decides it holds
one answer for each end of the text, so its head is the answer for the whole text:

    matchesText pattern text = true ↔ Matches pattern.toList text.toList      (matchesText_iff)
-/

namespace PictureSearch.Pattern

/-- A pattern matches a text: a per cent sign takes a run of characters of one line, any other
character takes one that agrees with it up to case. -/
inductive Matches : List Char → List Char → Prop
  | nil : Matches [] []
  | run {run pattern text : List Char} :
      '\n' ∉ run → Matches pattern text → Matches ('%' :: pattern) (run ++ text)
  | char {p t : Char} {pattern text : List Char} :
      p ≠ '%' → Text.sameFolded p t → Matches pattern text → Matches (p :: pattern) (t :: text)

/-! ## Lemmas -/

theorem matches_nil_iff (text : List Char) : Matches [] text ↔ text = [] := by
  constructor
  · rintro ⟨⟩
    rfl
  · rintro rfl
    exact .nil

theorem not_matches_char_nil {p : Char} (hp : p ≠ '%') (pattern : List Char) :
    ¬ Matches (p :: pattern) [] := by
  intro h
  generalize ht : ([] : List Char) = text at h
  cases h with
  | run => exact hp rfl
  | char => cases ht

theorem matches_char_cons_iff {p : Char} (hp : p ≠ '%') (t : Char) (pattern text : List Char) :
    Matches (p :: pattern) (t :: text) ↔ Text.sameFolded p t ∧ Matches pattern text := by
  constructor
  · intro h
    generalize ht : t :: text = whole at h
    cases h with
    | run => exact absurd rfl hp
    | char _ hf hm =>
      cases ht
      exact ⟨hf, hm⟩
  · rintro ⟨hf, hm⟩
    exact .char hp hf hm

theorem matches_run_nil_iff (pattern : List Char) :
    Matches ('%' :: pattern) [] ↔ Matches pattern [] := by
  constructor
  · intro h
    generalize ht : ([] : List Char) = text at h
    cases h with
    | char hp => exact absurd rfl hp
    | run _ hm =>
      obtain ⟨rfl, rfl⟩ := List.append_eq_nil_iff.1 ht.symm
      exact hm
  · intro hm
    exact @Matches.run [] _ _ (by simp) hm

/-- A per cent sign takes nothing, or one character of the line and then goes on. -/
theorem matches_run_cons_iff (t : Char) (pattern text : List Char) :
    Matches ('%' :: pattern) (t :: text) ↔
      Matches pattern (t :: text) ∨ t ≠ '\n' ∧ Matches ('%' :: pattern) text := by
  constructor
  · intro h
    generalize ht : t :: text = whole at h
    cases h with
    | char hp => exact absurd rfl hp
    | @run run _ rest hr hm =>
      cases run with
      | nil => exact Or.inl hm
      | cons u run =>
        cases ht
        rw [List.mem_cons, not_or] at hr
        exact Or.inr ⟨Ne.symm hr.1, .run hr.2 hm⟩
  · rintro (hm | ⟨ht, hm⟩)
    · exact @Matches.run [] _ _ (by simp) hm
    · cases hm with
      | char hp => exact absurd rfl hp
      | @run run _ rest hr hm =>
        exact @Matches.run (t :: run) _ _ (by simp [hr, Ne.symm ht]) hm

/-- The row of a text without its first character is the row without its head. -/
theorem row_cons (t : Char) (text pattern : List Char) :
    ∃ here, row (t :: text) pattern = here :: row text pattern := by
  induction pattern with
  | nil => exact ⟨false, rfl⟩
  | cons p pattern ih =>
    obtain ⟨here, hrow⟩ := ih
    unfold row
    split
    · rw [hrow]
      exact ⟨_, rfl⟩
    · rw [hrow]
      exact ⟨_, rfl⟩

theorem headD_row_iff (pattern text : List Char) :
    (row text pattern).headD false = true ↔ Matches pattern text := by
  induction pattern generalizing text with
  | nil =>
    rw [matches_nil_iff]
    cases text <;> simp [row, lastRow]
  | cons p pattern ih =>
    unfold row
    split
    · next hp =>
      subst hp
      induction text with
      | nil =>
        rw [matches_run_nil_iff, ← ih []]
        rfl
      | cons t text iht =>
        obtain ⟨here, hrow⟩ := row_cons t text pattern
        rw [matches_run_cons_iff, ← ih (t :: text), ← iht, hrow]
        simp [runRow]
    · next hp =>
      cases text with
      | nil => simp [charRow, not_matches_char_nil hp]
      | cons t text =>
        obtain ⟨here, hrow⟩ := row_cons t text pattern
        rw [matches_char_cons_iff hp, ← ih text, hrow]
        simp [charRow]

/-! ## Top theorem -/

/-- The table decides whether a pattern matches. -/
theorem matchesText_iff (pattern text : String) :
    matchesText pattern text = true ↔ Matches pattern.toList text.toList :=
  headD_row_iff pattern.toList text.toList

end PictureSearch.Pattern

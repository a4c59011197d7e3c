import PictureSearch.Text.Classes

/-!
# Blanks, letters and digits apart

The table of blanks has no code in common with those of letters and numerals, and that of letters
holds no ASCII digit, so a character is taken the same way whichever class is asked about first.
-/

namespace PictureSearch.Text

theorem exists_range_of_covers {rs : List (Nat × Nat)} {n : Nat} (h : covers rs n = true) :
    ∃ r ∈ rs, r.1 ≤ n ∧ n ≤ r.2 := by
  induction rs with
  | nil => cases h
  | cons r rs ih =>
    obtain ⟨first, last⟩ := r
    unfold covers at h
    split at h
    · cases h
    · next hn =>
      rw [Bool.or_eq_true, decide_eq_true_eq] at h
      rcases h with hl | hr
      · exact ⟨_, List.mem_cons_self, Nat.le_of_not_lt hn, hl⟩
      · obtain ⟨r, hr, hb⟩ := ih hr
        exact ⟨r, List.mem_cons_of_mem _ hr, hb⟩

/-- The codes of a table, one by one. -/
def codes (rs : List (Nat × Nat)) : List Nat :=
  rs.flatMap fun r => List.range' r.1 (r.2 + 1 - r.1)

theorem mem_codes_of_covers {rs : List (Nat × Nat)} {n : Nat} (h : covers rs n = true) :
    n ∈ codes rs := by
  obtain ⟨r, hr, h1, h2⟩ := exists_range_of_covers h
  exact List.mem_flatMap.2 ⟨r, hr, List.mem_range'_1.2 ⟨h1, by omega⟩⟩

theorem isAlpha_iff {c : Char} :
    c.isAlpha = true ↔ (65 ≤ c.toNat ∧ c.toNat ≤ 90) ∨ (97 ≤ c.toNat ∧ c.toNat ≤ 122) := by
  have hupper : c.isUpper = true ↔ 65 ≤ c.toNat ∧ c.toNat ≤ 90 := by
    show decide (c.val ≥ 'A'.val ∧ c.val ≤ 'Z'.val) = true ↔ _
    rw [decide_eq_true_eq]
    rfl
  have hlower : c.isLower = true ↔ 97 ≤ c.toNat ∧ c.toNat ≤ 122 := by
    show (decide (c.val ≥ 'a'.val) && decide (c.val ≤ 'z'.val)) = true ↔ _
    rw [Bool.and_eq_true, decide_eq_true_eq, decide_eq_true_eq]
    rfl
  show (c.isUpper || c.isLower) = true ↔ _
  rw [Bool.or_eq_true, hupper, hlower]

theorem isDigit_iff {c : Char} : c.isDigit = true ↔ 48 ≤ c.toNat ∧ c.toNat ≤ 57 := by
  simp only [Char.isDigit, Bool.and_eq_true, decide_eq_true_eq, ge_iff_le, UInt32.le_iff_toNat_le]
  rfl

theorem not_isAlphanumeric_of_isBlank {c : Char} (h : isBlank c = true) :
    isAlphanumeric c = false := by
  have hall : ∀ n ∈ codes blankRanges, covers alphabeticRanges n = false ∧
      covers numericRanges n = false ∧ (n < 48 ∨ 128 ≤ n) := by decide +kernel
  obtain ⟨ha, hd, hn⟩ := hall c.toNat (mem_codes_of_covers h)
  unfold isAlphanumeric
  split
  · rw [Char.isAlphanum, ← Bool.not_eq_true, Bool.or_eq_true, isAlpha_iff, isDigit_iff]
    omega
  · rw [ha, hd, Bool.false_or]

theorem not_isAlphabetic_of_isBlank {c : Char} (h : isBlank c = true) : isAlphabetic c = false := by
  rw [← Bool.not_eq_true]
  intro ha
  have := isAlphanumeric_of_isAlphabetic ha
  rw [not_isAlphanumeric_of_isBlank h] at this
  cases this

theorem not_isBlank_of_isDigit {c : Char} (h : c.isDigit = true) : isBlank c = false := by
  rw [← Bool.not_eq_true]
  intro hb
  have := isAlphanumeric_of_isDigit h
  rw [not_isAlphanumeric_of_isBlank hb] at this
  cases this

theorem not_isDigit_of_isAlphabetic {c : Char} (h : isAlphabetic c = true) : c.isDigit = false := by
  rw [← Bool.not_eq_true, isDigit_iff]
  intro hd
  unfold isAlphabetic at h
  rw [if_pos (by omega), isAlpha_iff] at h
  omega

end PictureSearch.Text

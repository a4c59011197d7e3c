import Mathlib.Data.List.DropRight
import PictureSearch.Text.Pieces

/-!
# Cutting and trimming at blanks

What is left of a text when its blanks at both ends are dropped, and the two parts of a text that is
cut at its first blank:

    trimBlanks cs = cs ↔ Trimmed cs                                         (trimBlanks_eq_self_iff)
    cutAtBlank cs = some (a, b) ↔
      ∃ c, cs = a ++ c :: b ∧ isBlank c = true ∧ Blankless a                (cutAtBlank_eq_some_iff)

Behind the first blank of a trimmed text something is left after trimming again
(`Trimmed.of_cutAtBlank`).
-/

namespace PictureSearch.Text

/-- No blank is at either end. -/
def Trimmed (cs : List Char) : Prop :=
  (∀ c ∈ cs.head?, isBlank c = false) ∧ ∀ c ∈ cs.getLast?, isBlank c = false

/-- No blank is in it. -/
def Blankless (cs : List Char) : Prop := ∀ c ∈ cs, isBlank c = false

variable {cs a b : List Char}

/-! ## Lemmas: trimming -/

theorem trimBlanks_eq (cs : List Char) :
    trimBlanks cs = (cs.dropWhile isBlank).rdropWhile isBlank := rfl

theorem trimmed_trimBlanks (cs : List Char) : Trimmed (trimBlanks cs) := by
  rw [trimBlanks_eq]
  constructor
  · intro c hc
    have hprefix := List.rdropWhile_prefix isBlank (cs.dropWhile isBlank)
    have hhead : (cs.dropWhile isBlank).head? = some c := by
      obtain ⟨rest, hrest⟩ := hprefix
      rw [← hrest, List.head?_append, hc]
      rfl
    have := List.head?_dropWhile_not isBlank cs
    rw [hhead] at this
    exact this
  · intro c hc
    obtain ⟨hne, rfl⟩ := List.mem_getLast?_eq_getLast hc
    exact Bool.not_eq_true _ ▸ List.rdropWhile_last_not isBlank _ hne

theorem trimBlanks_of_trimmed (h : Trimmed cs) : trimBlanks cs = cs := by
  have hfront : cs.dropWhile isBlank = cs := by
    cases cs with
    | nil => rfl
    | cons c cs => exact List.dropWhile_cons_of_neg (by simp [h.1 c rfl])
  rw [trimBlanks_eq, hfront, List.rdropWhile_eq_self_iff]
  intro hne
  simp [h.2 _ (List.getLast?_eq_getLast_of_ne_nil hne)]

theorem trimBlanks_eq_self_iff : trimBlanks cs = cs ↔ Trimmed cs :=
  ⟨fun h => h ▸ trimmed_trimBlanks cs, trimBlanks_of_trimmed⟩

theorem trimBlanks_ne_nil {c : Char} (hc : c ∈ cs) (hblank : isBlank c = false) :
    trimBlanks cs ≠ [] := by
  intro hnil
  rw [trimBlanks_eq, List.rdropWhile_eq_nil_iff] at hnil
  have hdrop : cs.dropWhile isBlank = [] := by
    by_contra hne
    have hhead := List.head?_dropWhile_not isBlank cs
    rw [List.head?_eq_some_head hne] at hhead
    have := hnil _ (List.head_mem hne)
    rw [hhead] at this
    cases this
  have := List.dropWhile_eq_nil_iff.1 hdrop c hc
  rw [hblank] at this
  cases this

theorem trimBlanks_infix (cs : List Char) : trimBlanks cs <:+: cs :=
  (List.rdropWhile_prefix isBlank _).isInfix.trans (List.dropWhile_suffix isBlank).isInfix

theorem blankless_iff_all : Blankless cs ↔ cs.all (fun c => !isBlank c) = true := by
  simp [Blankless]

theorem Blankless.trimmed (h : Blankless cs) : Trimmed cs :=
  ⟨fun c hc => h c (List.mem_of_mem_head? hc), fun c hc => h c (List.mem_of_mem_getLast? hc)⟩

theorem Trimmed.append (ha : ∀ c ∈ a.head?, isBlank c = false) (hb : Trimmed b) (hane : a ≠ [])
    (hbne : b ≠ []) : Trimmed (a ++ b) := by
  constructor
  · rwa [List.head?_append_of_ne_nil _ hane]
  · rw [List.getLast?_append_of_ne_nil _ hbne]
    exact hb.2

/-! ## Lemmas: cutting -/

theorem cutAtBlank_append {c : Char} (ha : Blankless a) (hc : isBlank c = true) (b : List Char) :
    cutAtBlank (a ++ c :: b) = some (a, b) := by
  induction a with
  | nil => simp [cutAtBlank, hc]
  | cons d a ih =>
    rw [Blankless, List.forall_mem_cons] at ha
    simp [cutAtBlank, ha.1, ih ha.2]

theorem exists_of_cutAtBlank (h : cutAtBlank cs = some (a, b)) :
    ∃ c, cs = a ++ c :: b ∧ isBlank c = true ∧ Blankless a := by
  induction cs generalizing a with
  | nil => cases h
  | cons d cs ih =>
    unfold cutAtBlank at h
    split at h
    · next hd =>
      cases h
      exact ⟨d, rfl, hd, nofun⟩
    · next hd =>
      obtain ⟨⟨a, b⟩, hcut, ⟨⟩⟩ := Option.map_eq_some_iff.1 h
      obtain ⟨c, rfl, hc, ha⟩ := ih hcut
      exact ⟨c, rfl, hc, List.forall_mem_cons.2 ⟨Bool.eq_false_iff.2 hd, ha⟩⟩

theorem cutAtBlank_eq_some_iff :
    cutAtBlank cs = some (a, b) ↔ ∃ c, cs = a ++ c :: b ∧ isBlank c = true ∧ Blankless a := by
  constructor
  · exact exists_of_cutAtBlank
  · rintro ⟨c, rfl, hc, ha⟩
    exact cutAtBlank_append ha hc b

/-- A trimmed text that has a blank has something on either side of it. -/
theorem Trimmed.of_cutAtBlank (h : Trimmed cs) (hcut : cutAtBlank cs = some (a, b)) :
    a ≠ [] ∧ trimBlanks b ≠ [] := by
  obtain ⟨c, rfl, hc, -⟩ := cutAtBlank_eq_some_iff.1 hcut
  constructor
  · rintro rfl
    have := h.1 c rfl
    rw [hc] at this
    cases this
  · have hlast : ∀ d ∈ (c :: b).getLast?, isBlank d = false := by
      have := h.2
      rwa [List.getLast?_append_of_ne_nil _ (List.cons_ne_nil c b)] at this
    cases b with
    | nil =>
      have := hlast c rfl
      rw [hc] at this
      cases this
    | cons d b =>
      rw [List.getLast?_cons_cons] at hlast
      have hmem := List.getLast_mem (List.cons_ne_nil d b)
      exact trimBlanks_ne_nil hmem (hlast _ (List.getLast?_eq_getLast_of_ne_nil _))

end PictureSearch.Text

import Mathlib.Data.List.Basic
import PictureSearch.Text.Quoted

/-!
# Where quoted text ends

The form of a character inside quotes is no beginning of the form of another, and none begins with
the quote itself.  So a quoted text can be told from what stands behind it:

    escapeIn '"' c ++ u = escapeIn '"' d ++ v → c = d ∧ u = v                      (escapeIn_cancel)
    (quoted s).toList ++ u = (quoted t).toList ++ v → s = t ∧ u = v                  (quoted_cancel)
-/

namespace PictureSearch.Text

/-! ## Statements -/

/-- The short escapes between double quotes: a letter and what it stands for. -/
def shortForms : List (Char × Char) :=
  [('0', '\x00'), ('t', '\t'), ('r', '\r'), ('n', '\n'), ('\\', '\\'), ('"', '"')]

/-- The forms that a character has between double quotes. -/
inductive Form (c : Char) : List Char → Prop
  | short {letter : Char} : (letter, c) ∈ shortForms → Form c ['\\', letter]
  | shown : c ≠ '\\' → c ≠ '"' → Form c [c]
  | code : Form c ('\\' :: 'u' :: '\x7b' :: (Nat.toDigits 16 c.toNat ++ ['\x7d']))

/-! ## Lemmas: stretches -/

/-- A stretch of one class ends where the class does. -/
theorem stretch_cancel {p : Char → Bool} {xs ys u v : List Char}
    (hx : ∀ c ∈ xs, p c = true) (hy : ∀ c ∈ ys, p c = true)
    (hu : ∀ c ∈ u.head?, p c = false) (hv : ∀ c ∈ v.head?, p c = false)
    (h : xs ++ u = ys ++ v) : xs = ys ∧ u = v := by
  have hnil : ∀ {w : List Char}, (∀ c ∈ w.head?, p c = false) → w.takeWhile p = [] := by
    intro w hw
    cases w with
    | nil => rfl
    | cons c w => rw [List.takeWhile_cons_of_neg (by simp [hw c rfl])]
  have htaken := congrArg (List.takeWhile p) h
  rw [List.takeWhile_append_of_pos hx, List.takeWhile_append_of_pos hy, hnil hu, hnil hv,
    List.append_nil, List.append_nil] at htaken
  subst htaken
  exact ⟨rfl, List.append_cancel_left h⟩

/-! ## Lemmas: hexadecimal digits -/

theorem digitChar_inj {m n : Nat} (hm : m < 16) (hn : n < 16)
    (h : Nat.digitChar m = Nat.digitChar n) : m = n := by
  have hdigits : ∀ m < 16, ∀ n < 16, Nat.digitChar m = Nat.digitChar n → m = n := by decide
  exact hdigits m hm n hn h

theorem toDigits_hex (n : Nat) : Nat.toDigits 16 n =
    if n < 16 then [Nat.digitChar n] else Nat.toDigits 16 (n / 16) ++ [Nat.digitChar (n % 16)] :=
  Nat.toDigits_eq_if (by decide)

theorem toDigits_inj {m n : Nat} (h : Nat.toDigits 16 m = Nat.toDigits 16 n) : m = n := by
  induction m using Nat.strongRecOn generalizing n with
  | _ m ih =>
    rw [toDigits_hex m, toDigits_hex n] at h
    by_cases hm : m < 16
    · by_cases hn : n < 16
      · rw [if_pos hm, if_pos hn] at h
        exact digitChar_inj hm hn (List.singleton_inj.1 h)
      · rw [if_pos hm, if_neg hn] at h
        exact absurd (List.append_eq_singleton_iff.1 h.symm) (by simp [Nat.toDigits_ne_nil])
    · by_cases hn : n < 16
      · rw [if_neg hm, if_pos hn] at h
        exact absurd (List.append_eq_singleton_iff.1 h) (by simp [Nat.toDigits_ne_nil])
      · rw [if_neg hm, if_neg hn] at h
        obtain ⟨hfront, hlast⟩ := List.append_inj' h rfl
        have hquotient := ih (m / 16) (by omega) hfront
        have hremainder := digitChar_inj (by omega) (by omega) (List.singleton_inj.1 hlast)
        omega

theorem ne_brace_of_mem_toDigits {n : Nat} {c : Char} (h : c ∈ Nat.toDigits 16 n) :
    c ≠ '\x7d' := by
  have hdigits : ∀ m < 16, Nat.digitChar m ≠ '\x7d' := by decide
  induction n using Nat.strongRecOn with
  | _ n ih =>
    rw [toDigits_hex] at h
    by_cases hn : n < 16
    · rw [if_pos hn] at h
      obtain rfl := List.mem_singleton.1 h
      exact hdigits n hn
    · rw [if_neg hn] at h
      rcases List.mem_append.1 h with h | h
      · exact ih (n / 16) (by omega) h
      · obtain rfl := List.mem_singleton.1 h
        exact hdigits _ (Nat.mod_lt _ (by decide))

/-! ## Lemmas: one character -/

theorem form_escapeIn (c : Char) : Form c (escapeIn '"' c) := by
  unfold escapeIn
  split
  case h_6 hslash =>
    split
    · next hquote =>
      subst hquote
      exact .short (by decide)
    · next hquote =>
      split
      · exact .shown hslash hquote
      · exact .code
  all_goals exact .short (by decide)

namespace Form

variable {c d : Char} {xs ys u v : List Char}

theorem head?_ne_quote (h : Form c xs) : (xs ++ u).head? ≠ some '"' := by
  cases h with
  | short _ => exact by simp
  | shown _ hquote => simpa using hquote
  | code => exact by simp

/-- Two forms of which one goes on as the other does are those of the same character. -/
theorem cancel (hc : Form c xs) (hd : Form d ys) (h : xs ++ u = ys ++ v) : c = d ∧ u = v := by
  have hletters : ∀ e ∈ shortForms, e.1 ≠ 'u' := by decide
  have hpairs : ∀ e ∈ shortForms, ∀ f ∈ shortForms, e.1 = f.1 → e.2 = f.2 := by decide
  cases hc with
  | short hc =>
    cases hd with
    | short hd =>
      injection h with _ h
      injection h with hletter h
      exact ⟨hpairs _ hc _ hd hletter, h⟩
    | shown hslash _ => exact absurd (List.cons.inj h).1.symm hslash
    | code => exact absurd (List.cons.inj (List.cons.inj h).2).1 (hletters _ hc)
  | shown hslash _ =>
    cases hd with
    | short _ => exact absurd (List.cons.inj h).1 hslash
    | shown _ _ => exact List.cons.inj h
    | code => exact absurd (List.cons.inj h).1 hslash
  | code =>
    cases hd with
    | short hd => exact absurd (List.cons.inj (List.cons.inj h).2).1.symm (hletters _ hd)
    | shown hslash _ => exact absurd (List.cons.inj h).1.symm hslash
    | code =>
      have hclass : ∀ n, ∀ c ∈ Nat.toDigits 16 n, (c != '\x7d') = true := by
        intro n c hc
        simpa using ne_brace_of_mem_toDigits hc
      have hend : ∀ w, ∀ c ∈ ('\x7d' :: w).head?, (c != '\x7d') = false := by
        intro w c hc
        obtain rfl := Option.some.inj hc
        rfl
      have hrest : Nat.toDigits 16 c.toNat ++ '\x7d' :: u =
          Nat.toDigits 16 d.toNat ++ '\x7d' :: v := by simpa using h
      obtain ⟨hdigits, hrest⟩ :=
        stretch_cancel (hclass _) (hclass _) (hend u) (hend v) hrest
      exact ⟨Char.toNat_inj.1 (toDigits_inj hdigits), (List.cons.inj hrest).2⟩

end Form

/-! ## Lemmas: texts -/

variable {u v : List Char}

theorem escapeIn_cancel {c d : Char} (h : escapeIn '"' c ++ u = escapeIn '"' d ++ v) :
    c = d ∧ u = v :=
  (form_escapeIn c).cancel (form_escapeIn d) h

theorem flatMap_escapeIn_cancel {cs ds : List Char}
    (h : cs.flatMap (escapeIn '"') ++ '"' :: u = ds.flatMap (escapeIn '"') ++ '"' :: v) :
    cs = ds ∧ u = v := by
  have hquote : ∀ c w x, escapeIn '"' c ++ w ≠ '"' :: x :=
    fun c w x he => (form_escapeIn c).head?_ne_quote (congrArg List.head? he)
  induction cs generalizing ds with
  | nil =>
    cases ds with
    | nil => exact ⟨rfl, (List.cons.inj h).2⟩
    | cons d ds =>
      rw [List.flatMap_cons, List.append_assoc] at h
      exact absurd h.symm (hquote d _ _)
  | cons c cs ih =>
    rw [List.flatMap_cons, List.append_assoc] at h
    cases ds with
    | nil => exact absurd h (hquote c _ _)
    | cons d ds =>
      rw [List.flatMap_cons, List.append_assoc] at h
      obtain ⟨rfl, hrest⟩ := escapeIn_cancel h
      obtain ⟨rfl, huv⟩ := ih hrest
      exact ⟨rfl, huv⟩

/-- A quoted text says what it quotes and where it ends, whatever stands behind it. -/
theorem quoted_cancel {s t : String} (h : (quoted s).toList ++ u = (quoted t).toList ++ v) :
    s = t ∧ u = v := by
  unfold quoted at h
  simp only [String.toList_ofList, List.cons_append, List.append_assoc, List.nil_append,
    List.cons.injEq, true_and] at h
  obtain ⟨hchars, huv⟩ := flatMap_escapeIn_cancel h
  exact ⟨String.toList_inj.1 hchars, huv⟩

end PictureSearch.Text

import PictureSearch.Json.Spelling

/-!
# Spelled strings and numbers

What may stand between the quotes of a JSON string (`Spelling`), and that a text is read back from
the way it is spelled, and a number from its digits:

    Spelling (escape s).toList                                                     (spelling_escape)
    unescape (escape s) = some s                                                   (unescape_escape)
    n < bound → (ofNat n).natBelow? bound = some n                                 (natBelow?_ofNat)
-/

namespace PictureSearch.Json

/-- The characters may stand between quotes.  Four digits may be those of half a surrogate pair. -/
inductive Spelling : List Char → Prop
  | nil : Spelling []
  | char {c : Char} {cs : List Char} :
      c ≠ '"' → c ≠ '\\' → 32 ≤ c.toNat → Spelling cs → Spelling (c :: cs)
  | short {c d : Char} {cs : List Char} :
      c ≠ 'u' → shortEscape? c = some d → Spelling cs → Spelling ('\\' :: c :: cs)
  | code {a b c d : Char} {n : Nat} {cs : List Char} :
      hex4? a b c d = some n → Spelling cs → Spelling ('\\' :: 'u' :: a :: b :: c :: d :: cs)

/-! ## Lemmas: one character -/

/-- How a character is spelled: by a short escape, by its code, or as it is. -/
theorem escapeChar_cases (c : Char) :
    (∃ e, escapeChar c = ['\\', e] ∧ e ≠ 'u' ∧ shortEscape? e = some c) ∨
      (escapeChar c =
          ['\\', 'u', '0', '0', hexDigit (c.toNat / 16), hexDigit (c.toNat % 16)] ∧
        c.toNat < 32) ∨
      (escapeChar c = [c] ∧ c ≠ '"' ∧ c ≠ '\\' ∧ 32 ≤ c.toNat) := by
  unfold escapeChar
  split
  case h_8 hquote hslash _ _ _ _ _ =>
    split
    · next h => exact .inr (.inl ⟨rfl, h⟩)
    · next h => exact .inr (.inr ⟨rfl, hquote, hslash, Nat.le_of_not_lt h⟩)
  all_goals exact .inl ⟨_, rfl, by decide, rfl⟩

theorem hex4?_of_lt {n : Nat} (hn : n < 32) :
    hex4? '0' '0' (hexDigit (n / 16)) (hexDigit (n % 16)) = some n := by
  have hdigits : ∀ n < 32, hex4? '0' '0' (hexDigit (n / 16)) (hexDigit (n % 16)) = some n := by
    decide
  exact hdigits n hn

section

variable {c : Char} {rest : List Char}

theorem unescapeChars_char (h : c ≠ '\\') :
    unescapeChars (c :: rest) = (unescapeChars rest).map (c :: ·) := by
  rw [unescapeChars]
  · exact fun _ _ _ _ _ he => absurd he h
  · exact fun _ _ he => absurd he h

theorem unescapeChars_short {d : Char} (hu : c ≠ 'u') (h : shortEscape? c = some d) :
    unescapeChars ('\\' :: c :: rest) = (unescapeChars rest).map (d :: ·) := by
  rw [unescapeChars, h]
  rintro _ _ _ _ _ he
  exact absurd he hu

theorem unescapeChars_code {a b x y : Char} {n : Nat} (h : hex4? a b x y = some n)
    (hn : n < 0xD800 ∨ 0xDFFF < n) :
    unescapeChars ('\\' :: 'u' :: a :: b :: x :: y :: rest) =
      (unescapeChars rest).map (Char.ofNat n :: ·) := by
  rw [unescapeChars, h]
  exact if_pos hn

theorem unescapeChars_escapeChar (c : Char) (rest : List Char) :
    unescapeChars (escapeChar c ++ rest) = (unescapeChars rest).map (c :: ·) := by
  rcases escapeChar_cases c with ⟨e, he, hu, hshort⟩ | ⟨he, hlt⟩ | ⟨he, -, hne, -⟩
  · rw [he]
    exact unescapeChars_short hu hshort
  · rw [he]
    have := @unescapeChars_code rest _ _ _ _ _ (hex4?_of_lt hlt) (.inl (by omega))
    rwa [Char.ofNat_toNat] at this
  · rw [he]
    exact unescapeChars_char hne

theorem Spelling.escapeChar_append (h : Spelling rest) (c : Char) :
    Spelling (escapeChar c ++ rest) := by
  rcases escapeChar_cases c with ⟨e, he, hu, hshort⟩ | ⟨he, hlt⟩ | ⟨he, hq, hne, hle⟩
  · rw [he]
    exact .short hu hshort h
  · rw [he]
    exact .code (hex4?_of_lt hlt) h
  · rw [he]
    exact .char hq hne hle h

end

/-! ## Lemmas: texts -/

theorem toList_escape (s : String) : (escape s).toList = s.toList.flatMap escapeChar :=
  String.toList_ofList

theorem spelling_escape (s : String) : Spelling (escape s).toList := by
  rw [toList_escape]
  induction s.toList with
  | nil => exact .nil
  | cons c cs ih => exact ih.escapeChar_append c

theorem unescape_escape (s : String) : unescape (escape s) = some s := by
  have hchars : ∀ cs, unescapeChars (cs.flatMap escapeChar) = some cs := by
    intro cs
    induction cs with
    | nil => rfl
    | cons c cs ih => rw [List.flatMap_cons, unescapeChars_escapeChar, ih, Option.map_some]
  unfold unescape
  rw [toList_escape, hchars, Option.map_some, String.ofList_toList]

theorem text?_ofText (s : String) : (ofText s).text? = some s := unescape_escape s

/-! ## Lemmas: numbers -/

theorem decimal?_toDigits (n : Nat) : Text.decimal? (Nat.toDigits 10 n) = some n := by
  have hdigits : (Nat.toDigits 10 n).all Char.isDigit = true :=
    List.all_eq_true.2 fun _ hc => Nat.isDigit_of_mem_toDigits (by decide) (by decide) hc
  unfold Text.decimal?
  rw [hdigits, Nat.ofDigitChars_ten_toDigits]
  simp

theorem natBelow?_ofNat {n bound : Nat} (h : n < bound) : (ofNat n).natBelow? bound = some n := by
  have hlist : (toString n).toList = Nat.toDigits 10 n := Nat.toList_repr
  rw [ofNat, natBelow?, hlist, decimal?_toDigits, Option.filter_some, if_pos (decide_eq_true h)]

end PictureSearch.Json

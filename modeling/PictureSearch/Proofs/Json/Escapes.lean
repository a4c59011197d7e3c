import PictureSearch.Proofs.Json.Spelling

/-!
# What a spelled string says

The characters between the quotes of a JSON string say a text: a character stands for itself or is
escaped, by a letter, by the four digits of its code, or by the codes of a surrogate pair.  `Says`
lists these ways; however a text is spelled it is read back:

    Says cs text → Spelling cs ∧ unescapeChars cs = some text                (Says.unescapeChars_eq)
    Says (text.flatMap escapeChar) text                                                (says_escape)
-/

namespace PictureSearch.Json

/-! ## Statements -/

/-- The letters that stand behind a backslash, and what they stand for. -/
def shortEscapes : List (Char × Char) :=
  [('"', '"'), ('\\', '\\'), ('/', '/'), ('b', '\x08'), ('f', '\x0c'), ('n', '\n'), ('r', '\r'),
    ('t', '\t')]

/-- A hexadecimal digit, small or capital, of the value. -/
def IsHexDigit (c : Char) (n : Nat) : Prop :=
  n < 16 ∧ (c = Nat.digitChar n ∨ c = (Nat.digitChar n).toUpper)

/-- Four hexadecimal digits and the number that they write. -/
inductive Code : List Char → Nat → Prop
  | mk {a b c d : Char} {w x y z : Nat} :
      IsHexDigit a w → IsHexDigit b x → IsHexDigit c y → IsHexDigit d z →
        Code [a, b, c, d] (((w * 16 + x) * 16 + y) * 16 + z)

/-- The characters between quotes say the text. -/
inductive Says : List Char → List Char → Prop
  | nil : Says [] []
  | char {c : Char} {cs text : List Char} :
      c ≠ '"' → c ≠ '\\' → 32 ≤ c.toNat → Says cs text → Says (c :: cs) (c :: text)
  | short {letter c : Char} {cs text : List Char} :
      (letter, c) ∈ shortEscapes → Says cs text → Says ('\\' :: letter :: cs) (c :: text)
  | code {digits : List Char} {c : Char} {cs text : List Char} :
      Code digits c.toNat → Says cs text → Says ('\\' :: 'u' :: (digits ++ cs)) (c :: text)
  /-- Two codes for a character past the codes of four digits. -/
  | pair {high low : List Char} {m n : Nat} {c : Char} {cs text : List Char} :
      Code high (0xD800 + m) → Code low (0xDC00 + n) → m < 0x400 → n < 0x400 →
        c.toNat = 0x10000 + m * 0x400 + n → Says cs text →
          Says ('\\' :: 'u' :: (high ++ '\\' :: 'u' :: (low ++ cs))) (c :: text)

/-! ## Lemmas: codes -/

theorem IsHexDigit.hexValue? {c : Char} {n : Nat} (h : IsHexDigit c n) :
    hexValue? c = some n := by
  have hdigits : ∀ n < 16, Json.hexValue? (Nat.digitChar n) = some n ∧
      Json.hexValue? (Nat.digitChar n).toUpper = some n := by decide
  obtain ⟨hn, rfl | rfl⟩ := h
  · exact (hdigits n hn).1
  · exact (hdigits n hn).2

theorem isHexDigit_hexDigit {n : Nat} (hn : n < 16) : IsHexDigit (hexDigit n) n := ⟨hn, .inl rfl⟩

theorem Code.hex4? {digits : List Char} {n : Nat} (h : Code digits n) :
    ∃ a b c d, digits = [a, b, c, d] ∧ hex4? a b c d = some n := by
  obtain ⟨ha, hb, hc, hd⟩ := h
  refine ⟨_, _, _, _, rfl, ?_⟩
  rw [Json.hex4?, ha.hexValue?, hb.hexValue?, hc.hexValue?, hd.hexValue?]
  rfl

theorem shortEscape?_of_mem {letter c : Char} (h : (letter, c) ∈ shortEscapes) :
    letter ≠ 'u' ∧ shortEscape? letter = some c := by
  have hall : ∀ e ∈ shortEscapes, e.1 ≠ 'u' ∧ shortEscape? e.1 = some e.2 := by decide
  exact hall _ h

theorem mem_shortEscapes_of_eq {letter c : Char} (h : shortEscape? letter = some c) :
    (letter, c) ∈ shortEscapes := by
  unfold shortEscape? at h
  split at h <;> first | cases h; decide | cases h

theorem unescapeChars_pair {a b x y e f g k : Char} {m n : Nat} {rest : List Char}
    (hhigh : hex4? a b x y = some (0xD800 + m)) (hlow : hex4? e f g k = some (0xDC00 + n))
    (hm : m < 0x400) (hn : n < 0x400) :
    unescapeChars ('\\' :: 'u' :: a :: b :: x :: y :: '\\' :: 'u' :: e :: f :: g :: k :: rest) =
      (unescapeChars rest).map (Char.ofNat (0x10000 + m * 0x400 + n) :: ·) := by
  have hsurrogate : ¬ (0xD800 + m < 0xD800 ∨ 0xDFFF < 0xD800 + m) := by omega
  have hfirst : ¬ 0xDBFF < 0xD800 + m := by omega
  have hsecond : ¬ (0xDC00 + n < 0xDC00 ∨ 0xDFFF < 0xDC00 + n) := by omega
  rw [unescapeChars, hhigh]
  simp only [if_neg hsurrogate, if_neg hfirst, hlow, if_neg hsecond, Nat.add_sub_cancel_left]

/-- No character has the code of half a surrogate pair. -/
theorem toNat_not_surrogate (c : Char) : c.toNat < 0xD800 ∨ 0xDFFF < c.toNat := by
  rcases c.valid with h | h
  · exact .inl h
  · exact .inr h.1

/-! ## Lemmas: texts -/

theorem Says.spelling {cs text : List Char} (h : Says cs text) : Spelling cs := by
  induction h with
  | nil => exact .nil
  | char hquote hslash hc _ ih => exact .char hquote hslash hc ih
  | short hmem _ ih =>
    obtain ⟨hu, hshort⟩ := shortEscape?_of_mem hmem
    exact .short hu hshort ih
  | code hcode _ ih =>
    obtain ⟨a, b, x, y, rfl, hvalue⟩ := hcode.hex4?
    exact .code hvalue ih
  | pair hhigh hlow _ _ _ _ ih =>
    obtain ⟨a, b, x, y, rfl, hm⟩ := hhigh.hex4?
    obtain ⟨e, f, g, k, rfl, hn⟩ := hlow.hex4?
    exact .code hm (.code hn ih)

/-- A spelled text is read back. -/
theorem Says.unescapeChars_eq {cs text : List Char} (h : Says cs text) :
    unescapeChars cs = some text := by
  induction h with
  | nil => rfl
  | char _ hslash _ _ ih => rw [unescapeChars_char hslash, ih, Option.map_some]
  | short hmem _ ih =>
    obtain ⟨hu, hshort⟩ := shortEscape?_of_mem hmem
    rw [unescapeChars_short hu hshort, ih, Option.map_some]
  | @code digits c cs text hcode _ ih =>
    obtain ⟨a, b, x, y, rfl, hvalue⟩ := hcode.hex4?
    have hread := @unescapeChars_code cs a b x y _ hvalue (toNat_not_surrogate c)
    rw [Char.ofNat_toNat, ih] at hread
    exact hread
  | @pair high low m n c cs text hhigh hlow hm hn hc _ ih =>
    obtain ⟨a, b, x, y, rfl, hfirst⟩ := hhigh.hex4?
    obtain ⟨e, f, g, k, rfl, hsecond⟩ := hlow.hex4?
    have hread := @unescapeChars_pair a b x y e f g k m n cs hfirst hsecond hm hn
    rw [← hc, Char.ofNat_toNat, ih] at hread
    exact hread

/-- The spelling with few escapes says what it is the spelling of. -/
theorem says_escape (text : List Char) : Says (text.flatMap escapeChar) text := by
  induction text with
  | nil => exact .nil
  | cons c text ih =>
    rw [List.flatMap_cons]
    rcases escapeChar_cases c with ⟨e, he, -, hshort⟩ | ⟨he, hlt⟩ | ⟨he, hq, hne, hle⟩
    · rw [he]
      exact .short (mem_shortEscapes_of_eq hshort) ih
    · rw [he]
      have hzero : IsHexDigit '0' 0 := ⟨by decide, .inl rfl⟩
      have hcode := Code.mk hzero hzero (isHexDigit_hexDigit (n := c.toNat / 16) (by omega))
        (isHexDigit_hexDigit (n := c.toNat % 16) (by omega))
      have hvalue : ((0 * 16 + 0) * 16 + c.toNat / 16) * 16 + c.toNat % 16 = c.toNat := by omega
      rw [hvalue] at hcode
      exact .code hcode ih
    · rw [he]
      exact .char hq hne hle ih

end PictureSearch.Json

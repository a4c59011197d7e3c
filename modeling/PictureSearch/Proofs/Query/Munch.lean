import Mathlib.Data.String.Basic
import PictureSearch.Proofs.Text.Classes
import PictureSearch.Query.Lexer
import PictureSearch.Query.Rendering

/-!
# The longest lexemes

The lexer takes one character at a time.  Here is what it cuts a text into, said by looking ahead:
a lexeme is a way to write its token (`Token.SpelledBy`) that what stands behind it neither goes on
nor spoils (`Token.ClosedBy`), and where no lexeme starts the text is refused (`Refused`) at a byte
counted from there.  `Cuts` puts these one behind another, with blanks skipped, up to the end of
the text or the first refusal.

    scan text = s ↔ Cuts 0 text.toList s
    (scan text).stop = none → Laid 0 text.toList (scan text).lexemes
                                                                        (scan_cuts_longest)

Both directions of the first rest on one lemma for each kind of token, which runs the lexer over
the characters of that token from any byte on (`scanFrom_word`, `scanFrom_digits`,
`scanFrom_quote`), and on `exists_lexeme_or_refused`: some lexeme or some refusal is always there.
-/

namespace PictureSearch.Query

open String (utf8Len)

/-! ## What a lexeme is -/

/-- The number that decimal digits write. -/
def decimal (digits : List Char) : Nat := Nat.ofDigitChars 10 digits 0

/-- The characters are a way to write the token. -/
def Token.SpelledBy : Token → List Char → Prop
  | .word w, cs => cs = w.toList ∧ isBareWord w = true
  | .integer n, cs => cs ≠ [] ∧ (∀ c ∈ cs, c.isDigit = true) ∧ n.toInt = decimal cs
  | .quoted s, cs =>
    ∃ quote, isQuote quote = true ∧ quote ∉ s.toList ∧ cs = quote :: (s.toList ++ [quote])
  | .op o, cs => cs = o.symbol.toList
  | .leftParen, cs => cs = ['(']
  | .rightParen, cs => cs = [')']
  | .and, cs => cs = ['&']
  | .or, cs => cs = ['|']
  | .not, cs => cs = ['!']

/-- A word or a number ends where the text does, or before a character that no word holds. -/
def Ends (rest : List Char) : Prop :=
  ∀ c ∈ rest.head?, isWordChar c = false ∧ isQuote c = false

/-- What stands behind the token is no part of it, and may stand there. -/
def Token.ClosedBy : Token → List Char → Prop
  | .word _, rest | .integer _, rest => Ends rest
  | .op .gt, rest | .op .lt, rest | .not, rest => rest.head? ≠ some '='
  | .quoted _, _ | .op _, _ | .leftParen, _ | .rightParen, _ | .and, _ | .or, _ => True

/-- The signs that start a token although no word, number or quoted text starts with them. -/
def signs : List Char := ['(', ')', '&', '|', '=', '@', '>', '<', '!']

/-- The characters start with no lexeme: why, and how many bytes on that is noticed.  A number out
of range is one whatever stands behind it. -/
inductive Refused : List Char → SyntaxError.Cause → Nat → Prop
  | integerOutOfRange {digits rest} :
    (∀ c ∈ digits, c.isDigit = true) → (∀ c ∈ rest.head?, c.isDigit = false) →
      Int64.maxValue.toInt < decimal digits → Refused (digits ++ rest) .integerOutOfRange 0
  | letterInInteger {digits c rest} :
    digits ≠ [] → (∀ d ∈ digits, d.isDigit = true) → decimal digits ≤ Int64.maxValue.toInt →
      c.isDigit = false → (Text.isAlphanumeric c = true ∨ c = '_') →
      Refused (digits ++ c :: rest) .letterInInteger (utf8Len digits)
  | wildcardInInteger {digits rest} :
    digits ≠ [] → (∀ d ∈ digits, d.isDigit = true) → decimal digits ≤ Int64.maxValue.toInt →
      Refused (digits ++ '%' :: rest) .wildcardInInteger (utf8Len digits)
  | quoteInInteger {digits quote rest} :
    digits ≠ [] → (∀ d ∈ digits, d.isDigit = true) → decimal digits ≤ Int64.maxValue.toInt →
      isQuote quote = true → Refused (digits ++ quote :: rest) .quoteInInteger (utf8Len digits)
  | quoteInWord {w quote rest} :
    isBareWord w = true → isQuote quote = true →
      Refused (w.toList ++ quote :: rest) .quoteInWord (utf8Len w.toList)
  | unclosedQuote {quote rest} :
    isQuote quote = true → quote ∉ rest → Refused (quote :: rest) .unclosedQuote 0
  | unexpectedCharacter {c rest} :
    Text.isBlank c = false → c.isDigit = false → isWordStart c = false → isQuote c = false →
      c ∉ signs → Refused (c :: rest) (.unexpectedCharacter c) 0

/-! ## What a text is cut into -/

/-- What the characters from byte `offset` on are cut into. -/
inductive Cuts : Nat → List Char → Scan → Prop
  | done {offset} : Cuts offset [] ⟨[], none⟩
  | blank {offset c cs s} :
    Text.isBlank c = true → Cuts (offset + c.utf8Size) cs s → Cuts offset (c :: cs) s
  | lexeme {offset} {t : Token} {cs rest s} :
    t.SpelledBy cs → t.ClosedBy rest → Cuts (offset + utf8Len cs) rest s →
      Cuts offset (cs ++ rest) ⟨⟨t, offset⟩ :: s.lexemes, s.stop⟩
  | refused {offset cs cause n} :
    Refused cs cause n → Cuts offset cs ⟨[], some ⟨cause, offset + n⟩⟩

/-- The lexemes stand in the characters in order, each at its own byte, with blanks alone before,
between and behind them. -/
inductive Laid : Nat → List Char → List Lexeme → Prop
  | blanks {offset gap} : (∀ c ∈ gap, Text.isBlank c = true) → Laid offset gap []
  | lexeme {offset} {t : Token} {gap cs rest ls} :
    (∀ c ∈ gap, Text.isBlank c = true) → t.SpelledBy cs →
      Laid (offset + utf8Len gap + utf8Len cs) rest ls →
      Laid offset (gap ++ (cs ++ rest)) (⟨t, offset + utf8Len gap⟩ :: ls)

/-! ## Lemmas: steps -/

theorem add_utf8Len_cons (offset : Nat) (c : Char) (cs : List Char) :
    offset + utf8Len (c :: cs) = offset + c.utf8Size + utf8Len cs := by
  rw [String.utf8Len_cons]
  omega

section

variable {s : State} {c : Char} {cs : List Char} {offset : Nat} {l : Lexeme}

/-- A character that completes nothing. -/
theorem scanFrom_of_kept {next : State} (h : s.step c offset = .ok (.taken ⟨none, next⟩)) :
    scanFrom s offset (c :: cs) = scanFrom next (offset + c.utf8Size) cs := by
  rw [scanFrom, h]
  rfl

theorem scanFrom_of_completed (h : s.step c offset = .ok (.taken ⟨some l, .start⟩)) :
    scanFrom s offset (c :: cs) =
      (scanFrom .start (offset + c.utf8Size) cs).after (some l) := by
  rw [scanFrom, h]

theorem scanFrom_of_error {e : SyntaxError} (h : s.step c offset = .error e) :
    scanFrom s offset (c :: cs) = ⟨[], some e⟩ := by
  rw [scanFrom, h]

/-- A character that is handed back is taken from the start. -/
theorem scanFrom_cons_of_handedBack (h : s.step c offset = .ok (.handedBack l)) :
    scanFrom s offset (c :: cs) = (scanFrom .start offset (c :: cs)).after (some l) := by
  rw [scanFrom, scanFrom, h]
  simp only [State.step]
  cases start c offset with
  | error e => rfl
  | ok t => rfl

/-- A token that was complete already, before the text behind it. -/
theorem scanFrom_of_handedBack (hf : s.finish = .ok (some l))
    (hs : ∀ c ∈ cs.head?, s.step c offset = .ok (.handedBack l)) :
    scanFrom s offset cs = (scanFrom .start offset cs).after (some l) := by
  cases cs with
  | nil =>
    rw [scanFrom, scanFrom, hf]
    rfl
  | cons c cs => exact scanFrom_cons_of_handedBack (hs c rfl)

end

/-! ## Lemmas: text that is kept -/

theorem push_append_ofList (text : String) (c : Char) (cs : List Char) :
    text.push c ++ String.ofList cs = text ++ String.ofList (c :: cs) := by
  apply String.toList_inj.1
  simp

/-- A run of characters, each of which a state takes into its text. -/
theorem scanFrom_text {state : String → State} {text : String} {offset : Nat}
    {run rest : List Char} (hstep : ∀ c ∈ run, ∀ text offset,
      (state text).step c offset = .ok (.taken ⟨none, state (text.push c)⟩)) :
    scanFrom (state text) offset (run ++ rest) =
      scanFrom (state (text ++ String.ofList run)) (offset + utf8Len run) rest := by
  induction run generalizing text offset with
  | nil => simp
  | cons c run ih =>
    rw [List.cons_append, scanFrom_of_kept (hstep c List.mem_cons_self text offset),
      ih fun d hd => hstep d (List.mem_cons_of_mem _ hd), push_append_ofList, add_utf8Len_cons]

/-! ## Lemmas: words -/

section

variable {offset first : Nat} {text : String} {rest : List Char}

theorem not_isBlank_of_isWordStart {c : Char} (h : isWordStart c = true) :
    Text.isBlank c = false := by
  cases hb : Text.isBlank c with
  | false => rfl
  | true =>
    have ha := Text.not_isAlphabetic_of_isBlank hb
    simp only [isWordStart, ha, Bool.false_or, Bool.or_eq_true, beq_iff_eq] at h
    rcases h with rfl | rfl <;> revert hb <;> decide

theorem not_isDigit_of_isWordStart {c : Char} (h : isWordStart c = true) : c.isDigit = false := by
  simp only [isWordStart, Bool.or_eq_true, beq_iff_eq] at h
  rcases h with (h | rfl) | rfl
  · exact Text.not_isDigit_of_isAlphabetic h
  · decide
  · decide

theorem isBareWord_iff {w : String} : isBareWord w = true ↔
    ∃ c cs, w.toList = c :: cs ∧ isWordStart c = true ∧ ∀ d ∈ cs, isWordChar d = true := by
  unfold isBareWord
  split
  · next h => simp [h]
  · next c cs h =>
    rw [Bool.and_eq_true, List.all_eq_true]
    constructor
    · rintro ⟨hc, hcs⟩
      exact ⟨c, cs, h, hc, hcs⟩
    · rintro ⟨c', cs', h', hc, hcs⟩
      obtain ⟨rfl, rfl⟩ := List.cons.inj (h.symm.trans h')
      exact ⟨hc, hcs⟩

/-- The lexer at the end of a bare word. -/
theorem scanFrom_word {w : String} (hw : isBareWord w = true) :
    scanFrom .start offset (w.toList ++ rest) =
      scanFrom (.word offset w) (offset + utf8Len w.toList) rest := by
  obtain ⟨c, cs, hl, hc, hcs⟩ := isBareWord_iff.1 hw
  have hstep : State.start.step c offset =
      .ok (.taken ⟨none, .word offset (String.singleton c)⟩) := by
    have hb := not_isBlank_of_isWordStart hc
    have hd := not_isDigit_of_isWordStart hc
    simp [State.step, start, hb, hd, hc, keep, Except.map]
  have hrest : ∀ d ∈ cs, ∀ text offset', (State.word offset text).step d offset' =
      .ok (.taken ⟨none, .word offset (text.push d)⟩) := by
    intro d hd text offset'
    simp [State.step, hcs d hd, keep, Except.map]
  have ht : w = String.singleton c ++ String.ofList cs := by
    apply String.toList_inj.1
    simp [hl]
  rw [hl, List.cons_append, scanFrom_of_kept hstep, scanFrom_text hrest, ← ht, add_utf8Len_cons]

theorem scanFrom_word_of_ends (hend : Ends rest) :
    scanFrom (.word first text) offset rest =
      (scanFrom .start offset rest).after (some ⟨.word text, first⟩) := by
  apply scanFrom_of_handedBack rfl
  intro c hc
  obtain ⟨hw, hq⟩ := hend c hc
  simp [State.step, hw, hq]

end

/-! ## Lemmas: quoted text -/

section

variable {offset : Nat} {quote : Char} {cs rest : List Char}

theorem isQuote_iff {c : Char} : isQuote c = true ↔ c = '"' ∨ c = '\'' := by
  simp [isQuote]

/-- The lexer behind an opening quote and characters that do not close it. -/
theorem scanFrom_quote (hquote : isQuote quote = true) (hq : quote ∉ cs) :
    scanFrom .start offset (quote :: (cs ++ rest)) =
      scanFrom (.quoted offset quote (String.ofList cs)) (offset + utf8Len (quote :: cs)) rest := by
  have hstep : State.start.step quote offset = .ok (.taken ⟨none, .quoted offset quote ""⟩) := by
    rcases isQuote_iff.1 hquote with rfl | rfl <;> rfl
  have hrest : ∀ c ∈ cs, ∀ text offset', (State.quoted offset quote text).step c offset' =
      .ok (.taken ⟨none, .quoted offset quote (text.push c)⟩) := by
    intro c hc text offset'
    have hne : c ≠ quote := fun e => hq (e ▸ hc)
    simp [State.step, hne, keep, Except.map]
  rw [scanFrom_of_kept hstep, scanFrom_text hrest, String.empty_append, add_utf8Len_cons]

end

/-! ## Lemmas: numbers -/

section

variable {offset first n : Nat} {digits rest : List Char}

theorem int64?_natCast {n : Nat} (h : n ≤ Int64.maxValue.toInt) :
    int64? (n : Int) = some (Int64.ofNat n) := by
  have hmin : Int64.minValue.toInt ≤ 0 := by decide
  unfold int64?
  rw [if_pos ⟨by omega, h⟩, Int64.ofInt_eq_ofNat]

theorem toInt_ofNat {n : Nat} (h : n ≤ Int64.maxValue.toInt) : (Int64.ofNat n).toInt = n := by
  have hmax : Int64.maxValue.toInt = 9223372036854775807 := by decide
  apply Int64.toInt_ofNat_of_lt
  omega

theorem appendDigit_ofNat {n : Nat} {d : Char}
    (h : (10 * n + (d.toNat - '0'.toNat) : Nat) ≤ Int64.maxValue.toInt) :
    appendDigit (Int64.ofNat n) d = some (Int64.ofNat (10 * n + (d.toNat - '0'.toNat))) := by
  have hn : (Int64.ofNat n).toInt = n := toInt_ofNat (by omega)
  have htens : (Int64.ofNat (10 * n)).toInt = (10 * n : Nat) := toInt_ofNat (by omega)
  have hmul : (n : Int) * 10 = (10 * n : Nat) := by omega
  unfold appendDigit
  rw [hn, hmul, int64?_natCast (by omega), Option.bind_some, htens, ← Int.natCast_add,
    int64?_natCast h]

theorem appendDigit_eq_none {n : Nat} {d : Char} (hn : n ≤ Int64.maxValue.toInt)
    (h : Int64.maxValue.toInt < (10 * n + (d.toNat - '0'.toNat) : Nat)) :
    appendDigit (Int64.ofNat n) d = none := by
  have hmul : (n : Int) * 10 = (10 * n : Nat) := by omega
  unfold appendDigit
  rw [toInt_ofNat hn, hmul]
  by_cases htens : (10 * n : Nat) ≤ Int64.maxValue.toInt
  · rw [int64?_natCast htens, Option.bind_some, toInt_ofNat htens, ← Int.natCast_add]
    exact if_neg fun hfits => by omega
  · rw [int64?, if_neg fun hfits => htens hfits.2, Option.bind_none]

theorem le_ofDigitChars (cs : List Char) (n : Nat) : n ≤ Nat.ofDigitChars 10 cs n := by
  induction cs generalizing n with
  | nil => simp
  | cons c cs ih =>
    rw [Nat.ofDigitChars_cons]
    have := ih (10 * n + (c.toNat - '0'.toNat))
    omega

theorem step_integer_digit {d : Char} (hd : d.isDigit = true)
    (hb : (10 * n + (d.toNat - '0'.toNat) : Nat) ≤ Int64.maxValue.toInt) :
    (State.integer first (Int64.ofNat n)).step d offset =
      .ok (.taken ⟨none, .integer first (Int64.ofNat (10 * n + (d.toNat - '0'.toNat)))⟩) := by
  simp [State.step, hd, appendDigit_ofNat hb, keep, Except.map]

theorem scanFrom_integerRest (hdigits : ∀ c ∈ digits, c.isDigit = true)
    (hb : Nat.ofDigitChars 10 digits n ≤ Int64.maxValue.toInt) :
    scanFrom (.integer first (Int64.ofNat n)) offset (digits ++ rest) =
      scanFrom (.integer first (Int64.ofNat (Nat.ofDigitChars 10 digits n)))
        (offset + utf8Len digits) rest := by
  induction digits generalizing n offset with
  | nil => simp
  | cons d digits ih =>
    rw [Nat.ofDigitChars_cons] at hb ⊢
    have hd := hdigits d List.mem_cons_self
    have hle := le_ofDigitChars digits (10 * n + (d.toNat - '0'.toNat))
    rw [List.cons_append, scanFrom_of_kept (step_integer_digit hd (by omega)),
      ih (fun c hc => hdigits c (List.mem_cons_of_mem _ hc)) hb, add_utf8Len_cons]

/-- The overflow is noticed at some digit, and reported where the number starts. -/
theorem scanFrom_integerRest_of_lt (hdigits : ∀ c ∈ digits, c.isDigit = true)
    (hn : n ≤ Int64.maxValue.toInt) (hb : Int64.maxValue.toInt < Nat.ofDigitChars 10 digits n) :
    scanFrom (.integer first (Int64.ofNat n)) offset (digits ++ rest) =
      ⟨[], some ⟨.integerOutOfRange, first⟩⟩ := by
  induction digits generalizing n offset with
  | nil =>
    rw [Nat.ofDigitChars_nil] at hb
    omega
  | cons d digits ih =>
    rw [Nat.ofDigitChars_cons] at hb
    have hd := hdigits d List.mem_cons_self
    rw [List.cons_append]
    by_cases hfits : (10 * n + (d.toNat - '0'.toNat) : Nat) ≤ Int64.maxValue.toInt
    · rw [scanFrom_of_kept (step_integer_digit hd hfits)]
      exact ih (fun c hc => hdigits c (List.mem_cons_of_mem _ hc)) hfits hb
    · have happ : appendDigit (Int64.ofNat n) d = none := appendDigit_eq_none hn (by omega)
      apply scanFrom_of_error
      simp [State.step, hd, happ]

theorem step_start_digit {d : Char} (hd : d.isDigit = true) :
    State.start.step d offset =
      .ok (.taken ⟨none, .integer offset (Int64.ofNat (10 * 0 + (d.toNat - '0'.toNat)))⟩) := by
  simp [State.step, start, Text.not_isBlank_of_isDigit hd, hd, keep, Except.map]

/-- The lexer at the end of digits whose number fits. -/
theorem scanFrom_digits (hne : digits ≠ []) (hdigits : ∀ c ∈ digits, c.isDigit = true)
    (hb : decimal digits ≤ Int64.maxValue.toInt) :
    scanFrom .start offset (digits ++ rest) =
      scanFrom (.integer offset (Int64.ofNat (decimal digits))) (offset + utf8Len digits) rest := by
  obtain ⟨d, digits, rfl⟩ := List.exists_cons_of_ne_nil hne
  unfold decimal at hb ⊢
  rw [Nat.ofDigitChars_cons] at hb ⊢
  rw [List.cons_append, scanFrom_of_kept (step_start_digit (hdigits d List.mem_cons_self)),
    scanFrom_integerRest (fun c hc => hdigits c (List.mem_cons_of_mem _ hc)) hb, add_utf8Len_cons]

theorem scanFrom_digits_of_lt (hdigits : ∀ c ∈ digits, c.isDigit = true)
    (hb : Int64.maxValue.toInt < decimal digits) :
    scanFrom .start offset (digits ++ rest) = ⟨[], some ⟨.integerOutOfRange, offset⟩⟩ := by
  have hmax : Int64.maxValue.toInt = 9223372036854775807 := by decide
  cases digits with
  | nil => simp [decimal, hmax] at hb
  | cons d digits =>
    unfold decimal at hb
    rw [Nat.ofDigitChars_cons] at hb
    have hd := Text.isDigit_iff.1 (hdigits d List.mem_cons_self)
    have hzero : '0'.toNat = 48 := rfl
    rw [List.cons_append, scanFrom_of_kept (step_start_digit (hdigits d List.mem_cons_self))]
    exact scanFrom_integerRest_of_lt (fun c hc => hdigits c (List.mem_cons_of_mem _ hc))
      (by omega) hb

theorem isDigit_eq_false_of_isAlphanumeric {c : Char} (h : Text.isAlphanumeric c = false) :
    c.isDigit = false := by
  cases hd : c.isDigit with
  | false => rfl
  | true => rw [Text.isAlphanumeric_of_isDigit hd] at h; cases h

theorem scanFrom_integer_of_ends {value : Int64} (hend : Ends rest) :
    scanFrom (.integer first value) offset rest =
      (scanFrom .start offset rest).after (some ⟨.integer value, first⟩) := by
  apply scanFrom_of_handedBack rfl
  intro c hc
  obtain ⟨hw, hq⟩ := hend c hc
  simp only [isWordChar, Bool.or_eq_false_iff, beq_eq_false_iff_ne] at hw
  obtain ⟨⟨ha, hu⟩, hp⟩ := hw
  simp [State.step, isDigit_eq_false_of_isAlphanumeric ha, ha, hu, hp, hq]

end

/-! ## Lemmas: signs and operators -/

section

variable {offset : Nat} {rest : List Char}

/-- A character that is a token by itself. -/
theorem scanFrom_sign {c : Char} {t : Token} (hc : start c offset = complete t offset) :
    scanFrom .start offset (c :: rest) =
      (scanFrom .start (offset + c.utf8Size) rest).after (some ⟨t, offset⟩) := by
  apply scanFrom_of_completed
  show (start c offset).map Step.taken = _
  rw [hc]
  rfl

/-- An equals sign makes one operator with the sign before it. -/
theorem scanFrom_widened {c : Char} {s : State} {o : Operator}
    (hc : State.start.step c offset = .ok (.taken ⟨none, s⟩))
    (hs : ∀ offset', s.step '=' offset' = .ok (.taken ⟨some ⟨.op o, offset⟩, .start⟩)) :
    scanFrom .start offset (c :: '=' :: rest) =
      (scanFrom .start (offset + c.utf8Size + '='.utf8Size) rest).after (some ⟨.op o, offset⟩) := by
  rw [scanFrom_of_kept hc, scanFrom_of_completed (hs _)]

/-- A sign that an equals sign would widen, without one behind it. -/
theorem scanFrom_narrow {c : Char} {s : State} {t : Token} (hne : rest.head? ≠ some '=')
    (hc : State.start.step c offset = .ok (.taken ⟨none, s⟩))
    (hf : s.finish = .ok (some ⟨t, offset⟩))
    (hs : ∀ c offset', c ≠ '=' → s.step c offset' = .ok (.handedBack ⟨t, offset⟩)) :
    scanFrom .start offset (c :: rest) =
      (scanFrom .start (offset + c.utf8Size) rest).after (some ⟨t, offset⟩) := by
  rw [scanFrom_of_kept hc]
  apply scanFrom_of_handedBack hf
  rintro d hd
  apply hs
  rintro rfl
  exact hne hd

theorem scanFrom_not (hne : rest.head? ≠ some '=') :
    scanFrom .start offset ('!' :: rest) =
      (scanFrom .start (offset + '!'.utf8Size) rest).after (some ⟨.not, offset⟩) :=
  @scanFrom_narrow _ _ _ (.bang offset) _ hne rfl rfl fun _ _ hc => by simp [State.step, hc]

theorem scanFrom_op (o : Operator) (hclosed : (Token.op o).ClosedBy rest) :
    scanFrom .start offset (o.symbol.toList ++ rest) =
      (scanFrom .start (offset + utf8Len o.symbol.toList) rest).after (some ⟨.op o, offset⟩) := by
  cases o with
  | eq => exact scanFrom_sign rfl
  | has => exact scanFrom_sign rfl
  | neq => exact @scanFrom_widened _ _ _ (.bang offset) _ rfl fun _ => rfl
  | gte => exact @scanFrom_widened _ _ _ (.angle offset .gt) _ rfl fun _ => rfl
  | lte => exact @scanFrom_widened _ _ _ (.angle offset .lt) _ rfl fun _ => rfl
  | gt =>
    exact @scanFrom_narrow _ _ _ (.angle offset .gt) _ hclosed rfl rfl fun _ _ hc => by
      simp [State.step, hc]
  | lt =>
    exact @scanFrom_narrow _ _ _ (.angle offset .lt) _ hclosed rfl rfl fun _ _ hc => by
      simp [State.step, hc]

end

/-! ## Lemmas: what is cut is what the lexer takes -/

section

variable {offset : Nat} {cs rest : List Char}

theorem scanFrom_lexeme {t : Token} (h : t.SpelledBy cs) (hclosed : t.ClosedBy rest) :
    scanFrom .start offset (cs ++ rest) =
      (scanFrom .start (offset + utf8Len cs) rest).after (some ⟨t, offset⟩) := by
  cases t with
  | word w =>
    obtain ⟨rfl, hw⟩ := h
    rw [scanFrom_word hw, scanFrom_word_of_ends hclosed]
  | integer n =>
    obtain ⟨hne, hdigits, hn⟩ := h
    have hb : decimal cs ≤ Int64.maxValue.toInt := hn ▸ n.toInt_le
    have hvalue : Int64.ofNat (decimal cs) = n := by
      rw [← Int64.ofInt_eq_ofNat, ← hn, Int64.ofInt_toInt]
    rw [scanFrom_digits hne hdigits hb, hvalue, scanFrom_integer_of_ends hclosed]
  | quoted s =>
    obtain ⟨quote, hquote, hs, rfl⟩ := h
    have hclose : (State.quoted offset quote (String.ofList s.toList)).step quote
        (offset + utf8Len (quote :: s.toList)) = .ok (.taken ⟨some ⟨.quoted s, offset⟩, .start⟩) := by
      simp [State.step, complete, Except.map]
    rw [List.cons_append, List.append_assoc, scanFrom_quote hquote hs, List.singleton_append,
      scanFrom_of_completed hclose, ← List.cons_append, String.utf8Len_append, Nat.add_assoc,
      String.utf8Len_cons quote [], String.utf8Len_nil, Nat.zero_add]
  | op o =>
    obtain rfl := h
    exact scanFrom_op o hclosed
  | not =>
    obtain rfl := h
    exact scanFrom_not hclosed
  | leftParen => obtain rfl := h; exact scanFrom_sign rfl
  | rightParen => obtain rfl := h; exact scanFrom_sign rfl
  | and => obtain rfl := h; exact scanFrom_sign rfl
  | or => obtain rfl := h; exact scanFrom_sign rfl

theorem scanFrom_refused {cause : SyntaxError.Cause} {n : Nat} (h : Refused cs cause n) :
    scanFrom .start offset cs = ⟨[], some ⟨cause, offset + n⟩⟩ := by
  cases h with
  | integerOutOfRange hdigits _ hb => exact scanFrom_digits_of_lt hdigits hb
  | letterInInteger hne hdigits hb hd hc =>
    rw [scanFrom_digits hne hdigits hb]
    apply scanFrom_of_error
    simp [State.step, hd, hc]
  | wildcardInInteger hne hdigits hb =>
    rw [scanFrom_digits hne hdigits hb]
    exact scanFrom_of_error rfl
  | quoteInInteger hne hdigits hb hquote =>
    rw [scanFrom_digits hne hdigits hb]
    apply scanFrom_of_error
    rcases isQuote_iff.1 hquote with rfl | rfl <;> rfl
  | quoteInWord hw hquote =>
    rw [scanFrom_word hw]
    apply scanFrom_of_error
    rcases isQuote_iff.1 hquote with rfl | rfl <;> rfl
  | unclosedQuote hquote hq =>
    rw [← List.append_nil (_ :: _), List.cons_append, scanFrom_quote hquote hq]
    rfl
  | unexpectedCharacter hb hd hw hquote hsign =>
    apply scanFrom_of_error
    simp only [isQuote, Bool.or_eq_false_iff, beq_eq_false_iff_ne] at hquote
    simp only [signs, List.mem_cons, List.not_mem_nil, or_false, not_or] at hsign
    simp [State.step, start, hb, hd, hw, hquote, hsign, Except.map]

theorem scanFrom_of_cuts {s : Scan} (h : Cuts offset cs s) : scanFrom .start offset cs = s := by
  induction h with
  | done => rfl
  | @blank offset c cs s hb _ ih =>
    have hstep : State.start.step c offset = .ok (.taken ⟨none, .start⟩) := by
      simp [State.step, start, hb, keep, Except.map]
    rw [scanFrom_of_kept hstep, ih]
  | lexeme hs hclosed _ ih =>
    rw [scanFrom_lexeme hs hclosed, ih]
    rfl
  | refused h => exact scanFrom_refused h

end

/-! ## Lemmas: a lexeme or a refusal is always there -/

section

variable {c : Char} {cs : List Char}

/-- The characters are a lexeme with what stands behind it. -/
def StartsWithLexeme (cs : List Char) : Prop :=
  ∃ (t : Token) (run rest : List Char), cs = run ++ rest ∧ t.SpelledBy run ∧ t.ClosedBy rest

theorem exists_longest_run (p : Char → Bool) (cs : List Char) :
    ∃ run rest, cs = run ++ rest ∧ (∀ c ∈ run, p c = true) ∧ ∀ c ∈ rest.head?, p c = false := by
  refine ⟨cs.takeWhile p, cs.dropWhile p, List.takeWhile_append_dropWhile.symm,
    List.all_eq_true.1 List.all_takeWhile, ?_⟩
  intro c hc
  have := List.head?_dropWhile_not p cs
  rw [hc] at this
  simpa using this

theorem Token.SpelledBy.ne_nil {t : Token} (h : t.SpelledBy cs) : cs ≠ [] := by
  cases t with
  | word w =>
    obtain ⟨rfl, hw⟩ := h
    obtain ⟨c, cs, hl, -⟩ := isBareWord_iff.1 hw
    simp [hl]
  | integer n => exact h.1
  | quoted s =>
    obtain ⟨quote, -, -, rfl⟩ := h
    exact List.cons_ne_nil _ _
  | op o =>
    obtain rfl := h
    cases o <;> decide
  | leftParen | rightParen | and | or | not =>
    obtain rfl := h
    exact List.cons_ne_nil _ _

theorem exists_of_not_ends {rest : List Char} (h : ¬ Ends rest) :
    ∃ d rest', rest = d :: rest' ∧ (isWordChar d = true ∨ isQuote d = true) := by
  unfold Ends at h
  push Not at h
  obtain ⟨d, hd, hspoils⟩ := h
  obtain ⟨rest', rfl⟩ := List.head?_eq_some_iff.1 hd
  refine ⟨d, rest', rfl, ?_⟩
  cases hw : isWordChar d with
  | true => exact .inl rfl
  | false => exact .inr (Bool.eq_true_of_not_eq_false (hspoils hw))

/-- What stands behind a number that fits, and may not stand there, decides what is wrong. -/
theorem refused_behind_digits {digits rest : List Char} {d : Char} (hne : digits ≠ [])
    (hdigits : ∀ c ∈ digits, c.isDigit = true) (hb : decimal digits ≤ Int64.maxValue.toInt)
    (hd : d.isDigit = false) (h : isWordChar d = true ∨ isQuote d = true) :
    ∃ cause, Refused (digits ++ d :: rest) cause (utf8Len digits) := by
  rcases h with hword | hquote
  · simp only [isWordChar, Bool.or_eq_true, beq_iff_eq] at hword
    rcases hword with hletter | rfl
    · exact ⟨_, .letterInInteger hne hdigits hb hd hletter⟩
    · exact ⟨_, .wildcardInInteger hne hdigits hb⟩
  · exact ⟨_, .quoteInInteger hne hdigits hb hquote⟩

theorem lexeme_or_refused_of_digit (hc : c.isDigit = true) :
    StartsWithLexeme (c :: cs) ∨ ∃ cause n, Refused (c :: cs) cause n := by
  obtain ⟨run, rest, rfl, hrun, hrest⟩ := exists_longest_run Char.isDigit cs
  rw [← List.cons_append]
  have hne : c :: run ≠ [] := List.cons_ne_nil _ _
  have hdigits : ∀ d ∈ c :: run, d.isDigit = true := List.forall_mem_cons.2 ⟨hc, hrun⟩
  by_cases hb : decimal (c :: run) ≤ Int64.maxValue.toInt
  · by_cases hend : Ends rest
    · exact .inl ⟨.integer (Int64.ofNat (decimal (c :: run))), _, _, rfl,
        ⟨hne, hdigits, toInt_ofNat hb⟩, hend⟩
    · obtain ⟨d, rest, rfl, hspoils⟩ := exists_of_not_ends hend
      obtain ⟨cause, h⟩ := refused_behind_digits hne hdigits hb (hrest d rfl) hspoils
      exact .inr ⟨cause, _, h⟩
  · exact .inr ⟨_, _, .integerOutOfRange hdigits hrest (by omega)⟩

theorem lexeme_or_refused_of_wordStart (hc : isWordStart c = true) :
    StartsWithLexeme (c :: cs) ∨ ∃ cause n, Refused (c :: cs) cause n := by
  obtain ⟨run, rest, rfl, hrun, hrest⟩ := exists_longest_run isWordChar cs
  have hl : (String.ofList (c :: run)).toList = c :: run := String.toList_ofList
  have hw : isBareWord (String.ofList (c :: run)) = true :=
    isBareWord_iff.2 ⟨c, run, hl, hc, hrun⟩
  rw [← List.cons_append, ← hl]
  by_cases hend : Ends rest
  · exact .inl ⟨.word _, _, _, rfl, ⟨rfl, hw⟩, hend⟩
  · obtain ⟨d, rest, rfl, hspoils⟩ := exists_of_not_ends hend
    rcases hspoils with hword | hquote
    · rw [hrest d rfl] at hword
      cases hword
    · exact .inr ⟨_, _, .quoteInWord hw hquote⟩

theorem lexeme_or_refused_of_quote (hc : isQuote c = true) :
    StartsWithLexeme (c :: cs) ∨ ∃ cause n, Refused (c :: cs) cause n := by
  by_cases hmem : c ∈ cs
  · obtain ⟨run, rest, rfl, hrun⟩ := List.eq_append_cons_of_mem hmem
    refine .inl ⟨.quoted (String.ofList run), c :: (run ++ [c]), rest, by simp, ?_, trivial⟩
    exact ⟨c, hc, by simpa using hrun, by simp⟩
  · exact .inr ⟨_, _, .unclosedQuote hc hmem⟩

theorem startsWithLexeme_of_mem_signs (hc : c ∈ signs) : StartsWithLexeme (c :: cs) := by
  -- a sign, or with an equals sign behind it the wider one
  have single : ∀ t : Token, t.SpelledBy [c] → t.ClosedBy cs → StartsWithLexeme (c :: cs) :=
    fun t hs hclosed => ⟨t, [c], cs, rfl, hs, hclosed⟩
  have widened : ∀ t wide : Token, t.SpelledBy [c] → (cs.head? ≠ some '=' → t.ClosedBy cs) →
      wide.SpelledBy [c, '='] → (∀ rest, wide.ClosedBy rest) → StartsWithLexeme (c :: cs) := by
    intro t wide hs hclosed hwide hwideClosed
    by_cases hhead : cs.head? = some '='
    · obtain ⟨rest, rfl⟩ := List.head?_eq_some_iff.1 hhead
      exact ⟨wide, [c, '='], rest, rfl, hwide, hwideClosed rest⟩
    · exact single t hs (hclosed hhead)
  simp only [signs, List.mem_cons, List.not_mem_nil, or_false] at hc
  rcases hc with rfl | rfl | rfl | rfl | rfl | rfl | rfl | rfl | rfl
  · exact single .leftParen rfl trivial
  · exact single .rightParen rfl trivial
  · exact single .and rfl trivial
  · exact single .or rfl trivial
  · exact single (.op .eq) rfl trivial
  · exact single (.op .has) rfl trivial
  · exact widened (.op .gt) (.op .gte) rfl id rfl fun _ => trivial
  · exact widened (.op .lt) (.op .lte) rfl id rfl fun _ => trivial
  · exact widened .not (.op .neq) rfl id rfl fun _ => trivial

theorem lexeme_or_refused (hb : Text.isBlank c = false) :
    StartsWithLexeme (c :: cs) ∨ ∃ cause n, Refused (c :: cs) cause n := by
  by_cases hd : c.isDigit = true
  · exact lexeme_or_refused_of_digit hd
  by_cases hw : isWordStart c = true
  · exact lexeme_or_refused_of_wordStart hw
  by_cases hq : isQuote c = true
  · exact lexeme_or_refused_of_quote hq
  by_cases hs : c ∈ signs
  · exact .inl (startsWithLexeme_of_mem_signs hs)
  · exact .inr ⟨_, _, .unexpectedCharacter hb (by simpa using hd) (by simpa using hw)
      (by simpa using hq) hs⟩

theorem exists_cuts (cs : List Char) (offset : Nat) : ∃ s, Cuts offset cs s := by
  induction hn : cs.length using Nat.strong_induction_on generalizing cs offset with
  | h n ih =>
    obtain _ | ⟨c, cs⟩ := cs
    · exact ⟨_, .done⟩
    cases hb : Text.isBlank c with
    | true =>
      obtain ⟨s, hs⟩ := ih cs.length (by simp [← hn]) cs (offset + c.utf8Size) rfl
      exact ⟨s, .blank hb hs⟩
    | false =>
      rcases lexeme_or_refused hb with ⟨t, run, rest, hrun, hspelled, hclosed⟩ | ⟨cause, m, h⟩
      · have hpos := List.length_pos_iff.2 hspelled.ne_nil
        rw [hrun] at hn ⊢
        rw [List.length_append] at hn
        obtain ⟨s, hs⟩ := ih rest.length (by omega) rest (offset + utf8Len run) rfl
        exact ⟨_, .lexeme hspelled hclosed hs⟩
      · exact ⟨_, .refused h⟩

theorem scanFrom_eq_iff {offset : Nat} {s : Scan} :
    scanFrom .start offset cs = s ↔ Cuts offset cs s := by
  constructor
  · rintro rfl
    obtain ⟨s, hs⟩ := exists_cuts cs offset
    rwa [scanFrom_of_cuts hs]
  · exact scanFrom_of_cuts

theorem cuts_scan (text : String) : Cuts 0 text.toList (scan text) := scanFrom_eq_iff.1 rfl

end

/-! ## Lemmas: where the lexemes stand -/

theorem Laid.blank_cons {offset : Nat} {c : Char} {cs : List Char} {ls : List Lexeme}
    (hc : Text.isBlank c = true) (h : Laid (offset + c.utf8Size) cs ls) :
    Laid offset (c :: cs) ls := by
  cases h with
  | blanks hgap => exact .blanks (List.forall_mem_cons.2 ⟨hc, hgap⟩)
  | @lexeme _ t gap cs rest ls hgap hs hrest =>
    rw [← add_utf8Len_cons] at hrest ⊢
    exact .lexeme (List.forall_mem_cons.2 ⟨hc, hgap⟩) hs hrest

theorem Cuts.laid {offset : Nat} {cs : List Char} {s : Scan} (h : Cuts offset cs s)
    (hstop : s.stop = none) : Laid offset cs s.lexemes := by
  induction h with
  | done => exact .blanks fun _ h => nomatch h
  | blank hb _ ih => exact (ih hstop).blank_cons hb
  | @lexeme offset t cs rest s hs _ _ ih =>
    exact @Laid.lexeme offset t [] cs rest s.lexemes (fun _ h => nomatch h) hs (ih hstop)
  | refused => cases hstop

/-- **The lexer cuts every text into its longest lexemes**, each at the byte of its first
character, up to the first character that no lexeme starts with; a text that it cuts without an
error is its lexemes with blanks alone around them. -/
theorem scan_cuts_longest (text : String) :
    (∀ s : Scan, scan text = s ↔ Cuts 0 text.toList s) ∧
      ((scan text).stop = none → Laid 0 text.toList (scan text).lexemes) :=
  ⟨fun _ => scanFrom_eq_iff, fun hstop => (scanFrom_eq_iff.1 rfl).laid hstop⟩

/-- Of two faults the one that is noticed first counts: the number, not the letter behind it. -/
example : scan "ö 9223372036854775808x" = ⟨[⟨.word "ö", 0⟩], some ⟨.integerOutOfRange, 3⟩⟩ := by
  decide

end PictureSearch.Query

import PictureSearch.Proofs.Query.Munch

/-!
# What the lexer reads

`Reads s cs ts`: from the state `s` the characters `cs` are cut into the tokens `ts`, without an
error, wherever in the text they stand.  Each lemma puts one token before a text that is read
already, so that a whole text is read from its end:

    isBareWord w → Ends rest → Reads .start rest ts →
      Reads .start (w.toList ++ rest) (.word w :: ts)                         (reads_word)
    isQuote quote → quote ∉ s.toList → Reads .start rest ts →
      Reads .start (quote :: (s.toList ++ quote :: rest)) (.quoted s :: ts) (reads_quoted)
    0 ≤ n.toInt → Ends rest → Reads .start rest ts →
      Reads .start ((toString n.toInt).toList ++ rest) (.integer n :: ts)  (reads_integer)

All of them are `reads_lexeme` at one spelling of a token.
-/

namespace PictureSearch.Query

/-- From `s` the characters are cut into the tokens, at whatever offset. -/
def Reads (s : State) (cs : List Char) (ts : List Token) : Prop :=
  ∀ offset, (scanFrom s offset cs).stop = none ∧
    (scanFrom s offset cs).lexemes.map Lexeme.token = ts

/-! ## Lemmas: one lexeme before the rest -/

section

variable {cs rest : List Char} {ts : List Token}

theorem reads_nil : Reads .start [] [] := fun _ => ⟨rfl, rfl⟩

theorem reads_blank (h : Reads .start cs ts) : Reads .start (' ' :: cs) ts := by
  intro offset
  have hstep : State.start.step ' ' offset = .ok (.taken ⟨none, .start⟩) := rfl
  rw [scanFrom_of_kept hstep]
  exact h _

theorem reads_lexeme {t : Token} (hs : t.SpelledBy cs) (hclosed : t.ClosedBy rest)
    (h : Reads .start rest ts) : Reads .start (cs ++ rest) (t :: ts) := by
  intro offset
  obtain ⟨hstop, hts⟩ := h (offset + String.utf8Len cs)
  rw [scanFrom_lexeme hs hclosed]
  exact ⟨hstop, congrArg (t :: ·) hts⟩

/-- A character that is a token by itself. -/
theorem reads_sign {c : Char} {t : Token} (hc : ∀ offset, start c offset = complete t offset)
    (h : Reads .start cs ts) : Reads .start (c :: cs) (t :: ts) := by
  intro offset
  obtain ⟨hstop, hts⟩ := h (offset + c.utf8Size)
  rw [scanFrom_sign (hc offset)]
  exact ⟨hstop, congrArg (t :: ·) hts⟩

theorem reads_bang (hne : cs.head? ≠ some '=') (h : Reads .start cs ts) :
    Reads .start ('!' :: cs) (.not :: ts) :=
  @reads_lexeme ['!'] cs ts .not rfl hne h

/-- An operator; behind it an equals sign might be taken for a part of it. -/
theorem reads_op (o : Operator) (hne : cs.head? ≠ some '=') (h : Reads .start cs ts) :
    Reads .start (o.symbol.toList ++ cs) (.op o :: ts) := by
  have hclosed : (Token.op o).ClosedBy cs := by
    cases o with
    | gt | lt => exact hne
    | _ => trivial
  exact @reads_lexeme o.symbol.toList cs ts (.op o) rfl hclosed h

theorem reads_word {w : String} (hw : isBareWord w = true) (hend : Ends rest)
    (h : Reads .start rest ts) : Reads .start (w.toList ++ rest) (.word w :: ts) :=
  @reads_lexeme w.toList rest ts (.word w) ⟨rfl, hw⟩ hend h

theorem reads_quoted {quote : Char} {s : String} (hquote : isQuote quote = true)
    (hs : quote ∉ s.toList) (h : Reads .start rest ts) :
    Reads .start (quote :: (s.toList ++ quote :: rest)) (.quoted s :: ts) := by
  have hread := @reads_lexeme _ rest ts (.quoted s) ⟨quote, hquote, hs, rfl⟩ trivial h
  rwa [List.cons_append, List.append_assoc, List.singleton_append] at hread

end

/-! ## Lemmas: written numbers -/

/-- A number that is not negative is written in digits alone. -/
theorem exists_digits {n : Int64} (hn : 0 ≤ n.toInt) :
    ∃ k : Nat, k ≤ Int64.maxValue.toInt ∧ n = Int64.ofNat k ∧
      (toString n.toInt).toList = Nat.toDigits 10 k := by
  obtain ⟨k, hk⟩ := Int.eq_ofNat_of_zero_le hn
  refine ⟨k, hk ▸ n.toInt_le, ?_, ?_⟩
  · rw [← Int64.ofInt_toInt n, hk, Int64.ofInt_eq_ofNat]
  · rw [hk]
    exact Nat.toList_repr

theorem isDigit_of_mem_toDigits {k : Nat} {c : Char} (hc : c ∈ Nat.toDigits 10 k) :
    c.isDigit = true :=
  Nat.isDigit_of_mem_toDigits (by decide) (by decide) hc

theorem reads_integer {n : Int64} {rest : List Char} {ts : List Token} (hn : 0 ≤ n.toInt)
    (hend : Ends rest) (h : Reads .start rest ts) :
    Reads .start ((toString n.toInt).toList ++ rest) (.integer n :: ts) := by
  obtain ⟨k, hk, rfl, hdigits⟩ := exists_digits hn
  rw [hdigits]
  have hvalue : decimal (Nat.toDigits 10 k) = k := Nat.ofDigitChars_ten_toDigits
  refine @reads_lexeme _ rest ts (.integer (Int64.ofNat k)) ⟨Nat.toDigits_ne_nil, ?_, ?_⟩ hend h
  · exact fun _ => isDigit_of_mem_toDigits
  · rw [toInt_ofNat hk, hvalue]

end PictureSearch.Query

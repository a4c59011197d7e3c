import PictureSearch.Proofs.Json.Reading

/-!
# The grammar of JSON

What a text spells, with no reader in sight: gaps around values and before keys, numbers with their
parts, values one after the other.

    element  := gap value gap
    value    := 'null' | 'true' | 'false' | numeral | string | '[' gap ']' | '[' elements ']'
              | '{' gap '}' | '{' members '}'
    elements := element | element ',' elements
    member   := gap string gap ':' element
    members  := member | member ',' members

Every text of the grammar is read as the value that it spells, however deep the value is nested:

    ElementText v text.toList → read? text = some v                           (read?_of_elementText)
-/

namespace PictureSearch.Json

/-! ## Statements: gaps and numbers -/

/-- Blanks that may stand around tokens. -/
def Gap (cs : List Char) : Prop := ∀ c ∈ cs, c = ' ' ∨ c = '\t' ∨ c = '\n' ∨ c = '\r'

def Digits (cs : List Char) : Prop := cs ≠ [] ∧ ∀ c ∈ cs, c.isDigit = true

/-- The digits before the point, without a leading zero. -/
inductive Whole : List Char → Prop
  | zero : Whole ['0']
  | digits {c : Char} {cs : List Char} :
      c.isDigit = true → c ≠ '0' → (∀ d ∈ cs, d.isDigit = true) → Whole (c :: cs)

inductive Fraction : List Char → Prop
  | none : Fraction []
  | some {ds : List Char} : Digits ds → Fraction ('.' :: ds)

inductive Exponent : List Char → Prop
  | none : Exponent []
  | unsigned {e : Char} {ds : List Char} : e = 'e' ∨ e = 'E' → Digits ds → Exponent (e :: ds)
  | signed {e sign : Char} {ds : List Char} :
      e = 'e' ∨ e = 'E' → sign = '+' ∨ sign = '-' → Digits ds → Exponent (e :: sign :: ds)

/-- A number without its sign. -/
inductive Magnitude : List Char → Prop
  | mk {whole fraction exponent : List Char} :
      Whole whole → Fraction fraction → Exponent exponent →
        Magnitude (whole ++ (fraction ++ exponent))

inductive Numeral : List Char → Prop
  | positive {cs : List Char} : Magnitude cs → Numeral cs
  | negative {cs : List Char} : Magnitude cs → Numeral ('-' :: cs)

/-! ## Statements: values -/

mutual

/-- The characters spell the value. -/
inductive ValueText : Json → List Char → Prop
  | null : ValueText .null "null".toList
  | true : ValueText (.bool true) "true".toList
  | false : ValueText (.bool false) "false".toList
  | number {cs : List Char} : Numeral cs → ValueText (.number (String.ofList cs)) cs
  | string {cs : List Char} :
      Spelling cs → ValueText (.string (String.ofList cs)) ('"' :: (cs ++ ['"']))
  | noElements {gap : List Char} : Gap gap → ValueText (.array []) ('[' :: (gap ++ [']']))
  | array {es : List Json} {cs : List Char} :
      ElementsText es cs → ValueText (.array es) ('[' :: (cs ++ [']']))
  | noMembers {gap : List Char} :
      Gap gap → ValueText (.object []) ('\x7b' :: (gap ++ ['\x7d']))
  | object {ms : List (String × Json)} {cs : List Char} :
      MembersText ms cs → ValueText (.object ms) ('\x7b' :: (cs ++ ['\x7d']))

/-- The characters spell the value, with gaps around it. -/
inductive ElementText : Json → List Char → Prop
  | mk {v : Json} {before cs behind : List Char} :
      Gap before → ValueText v cs → Gap behind → ElementText v (before ++ cs ++ behind)

/-- Values with commas between them. -/
inductive ElementsText : List Json → List Char → Prop
  | last {v : Json} {cs : List Char} : ElementText v cs → ElementsText [v] cs
  | cons {v : Json} {es : List Json} {cs ds : List Char} :
      ElementText v cs → ElementsText es ds → ElementsText (v :: es) (cs ++ ',' :: ds)

/-- A key as it is spelled, and a value. -/
inductive MemberText : String × Json → List Char → Prop
  | mk {v : Json} {before key behind cs : List Char} :
      Gap before → Spelling key → Gap behind → ElementText v cs →
        MemberText (String.ofList key, v) (before ++ '"' :: (key ++ '"' :: (behind ++ ':' :: cs)))

inductive MembersText : List (String × Json) → List Char → Prop
  | last {m : String × Json} {cs : List Char} : MemberText m cs → MembersText [m] cs
  | cons {m : String × Json} {ms : List (String × Json)} {cs ds : List Char} :
      MemberText m cs → MembersText ms ds → MembersText (m :: ms) (cs ++ ',' :: ds)

end

/-! ## Lemmas: numbers -/

section

variable {cs ds : List Char}

theorem dropWhile_digits (h : ∀ c ∈ cs, c.isDigit = true)
    (hds : ∀ c ∈ ds.head?, c.isDigit = false) : (cs ++ ds).dropWhile Char.isDigit = ds := by
  rw [List.dropWhile_append_of_pos h]
  cases ds with
  | nil => rfl
  | cons d ds => rw [List.dropWhile_cons_of_neg (by simp [hds d rfl])]

theorem Exponent.head? (h : Exponent cs) : ∀ c ∈ cs.head?, c = 'e' ∨ c = 'E' := by
  cases h with
  | none => exact nofun
  | unsigned he _ | signed he _ _ =>
    intro c hc
    obtain rfl := Option.some.inj hc
    exact he

theorem Exponent.isNumberTail (h : Exponent cs) : isNumberTail cs = true := by
  cases h with
  | none => rfl
  | unsigned he hds =>
    obtain ⟨hne, hds⟩ := hds
    obtain ⟨d, ds, rfl⟩ := List.exists_cons_of_ne_nil hne
    obtain ⟨hd, hds⟩ := List.forall_mem_cons.1 hds
    have hplus : d ≠ '+' := by
      rintro rfl
      cases hd
    have hminus : d ≠ '-' := by
      rintro rfl
      cases hd
    have hall : ds.all Char.isDigit = true := List.all_eq_true.2 hds
    rcases he with rfl | rfl <;> simp [Json.isNumberTail, hplus, hminus, hd, hall]
  | signed he hsign hds =>
    obtain ⟨hne, hds⟩ := hds
    have hall := List.all_eq_true.2 hds
    rcases he with rfl | rfl <;> rcases hsign with rfl | rfl <;>
      simp [Json.isNumberTail, hne, hall]

theorem Fraction.isNumberTail (hf : Fraction cs) (hx : Exponent ds) :
    isNumberTail (cs ++ ds) = true := by
  cases hf with
  | none => exact hx.isNumberTail
  | some hdigits =>
    obtain ⟨hne, hdigits⟩ := hdigits
    obtain ⟨c, cs, rfl⟩ := List.exists_cons_of_ne_nil hne
    obtain ⟨hc, hcs⟩ := List.forall_mem_cons.1 hdigits
    have hend : ∀ d ∈ ds.head?, d.isDigit = false := by
      intro d hd
      rcases hx.head? d hd with rfl | rfl <;> rfl
    have htail := hx.isNumberTail
    have hpoint : ∀ d rest, ds ≠ '.' :: d :: rest := by
      rintro d rest rfl
      rcases hx.head? '.' rfl with h | h <;> cases h
    unfold Json.isNumberTail at htail ⊢
    simp only [List.cons_append, hc, dropWhile_digits hcs hend, Bool.true_and]
    split at htail
    · next d rest => exact absurd rfl (hpoint d rest)
    · exact htail

theorem head?_fraction_append (hf : Fraction cs) (hx : Exponent ds) :
    ∀ c ∈ (cs ++ ds).head?, c.isDigit = false := by
  intro c hc
  cases hf with
  | none => rcases hx.head? c hc with rfl | rfl <;> rfl
  | some _ =>
    obtain rfl := Option.some.inj hc
    rfl

theorem isNumber_cons {c : Char} (hc : c.isDigit = true) (hzero : c ≠ '0') :
    isNumber (c :: cs) = isNumberTail (cs.dropWhile Char.isDigit) ∧
      isNumber ('-' :: c :: cs) = isNumberTail (cs.dropWhile Char.isDigit) := by
  have hminus : c ≠ '-' := by
    rintro rfl
    cases hc
  simp [isNumber, hc, hminus]

theorem Magnitude.isNumber (h : Magnitude cs) :
    isNumber cs = true ∧ isNumber ('-' :: cs) = true := by
  obtain ⟨hwhole, hf, hx⟩ := h
  have htail := hf.isNumberTail hx
  cases hwhole with
  | zero => exact ⟨htail, htail⟩
  | digits hc hzero hcs =>
    rw [List.cons_append, (isNumber_cons hc hzero).1, (isNumber_cons hc hzero).2,
      dropWhile_digits hcs (head?_fraction_append hf hx)]
    exact ⟨htail, htail⟩

theorem Numeral.isNumber (h : Numeral cs) : isNumber cs = true := by
  cases h with
  | positive h => exact h.isNumber.1
  | negative h => exact h.isNumber.2

theorem isWordChar_of_isDigit {c : Char} (h : c.isDigit = true) : isWordChar c = true := by
  simp [isWordChar, Char.isAlphanum, h]

theorem Digits.all_isWordChar (h : Digits cs) : ∀ c ∈ cs, isWordChar c = true :=
  fun c hc => isWordChar_of_isDigit (h.2 c hc)

theorem Exponent.all_isWordChar (h : Exponent cs) : ∀ c ∈ cs, isWordChar c = true := by
  have hletter : ∀ {e : Char}, e = 'e' ∨ e = 'E' → isWordChar e = true := by
    rintro e (rfl | rfl) <;> rfl
  cases h with
  | none => exact nofun
  | unsigned he hds => exact List.forall_mem_cons.2 ⟨hletter he, hds.all_isWordChar⟩
  | signed he hsign hds =>
    refine List.forall_mem_cons.2
      ⟨hletter he, List.forall_mem_cons.2 ⟨?_, hds.all_isWordChar⟩⟩
    rcases hsign with rfl | rfl <;> rfl

theorem Fraction.all_isWordChar (h : Fraction cs) : ∀ c ∈ cs, isWordChar c = true := by
  cases h with
  | none => exact nofun
  | some hds => exact List.forall_mem_cons.2 ⟨rfl, hds.all_isWordChar⟩

theorem Whole.all_isWordChar (h : Whole cs) : ∀ c ∈ cs, isWordChar c = true := by
  cases h with
  | zero => exact List.forall_mem_singleton.2 rfl
  | digits hc _ hcs =>
    exact List.forall_mem_cons.2
      ⟨isWordChar_of_isDigit hc, fun d hd => isWordChar_of_isDigit (hcs d hd)⟩

theorem Magnitude.all_isWordChar (h : Magnitude cs) : ∀ c ∈ cs, isWordChar c = true := by
  obtain ⟨hw, hf, hx⟩ := h
  exact List.forall_mem_append.2
    ⟨hw.all_isWordChar, List.forall_mem_append.2 ⟨hf.all_isWordChar, hx.all_isWordChar⟩⟩

theorem Numeral.all_isWordChar (h : Numeral cs) : ∀ c ∈ cs, isWordChar c = true := by
  cases h with
  | positive h => exact h.all_isWordChar
  | negative h => exact List.forall_mem_cons.2 ⟨rfl, h.all_isWordChar⟩

theorem Numeral.ne_nil (h : Numeral cs) : cs ≠ [] := by
  rintro rfl
  cases h.isNumber

end

/-! ## Lemmas: gaps -/

section

variable {cs rest : List Char} {ts : List Token}

theorem isGap_of_mem (h : Gap cs) : ∀ c ∈ cs, isGap c = true := by
  intro c hc
  rcases h c hc with rfl | rfl | rfl | rfl <;> rfl

theorem Gap.scans (hgap : Gap cs) (h : Scans rest ts) : Scans (cs ++ rest) ts := by
  induction cs with
  | nil => exact h
  | cons c cs ih =>
    exact scans_gap (isGap_of_mem hgap c List.mem_cons_self)
      (ih fun d hd => hgap d (List.mem_cons_of_mem c hd))

theorem Gap.endsWord (hgap : Gap cs) (h : EndsWord rest) : EndsWord (cs ++ rest) := by
  cases cs with
  | nil => exact h
  | cons c cs =>
    refine endsWord_cons ?_
    rcases hgap c List.mem_cons_self with rfl | rfl | rfl | rfl <;> rfl

end

/-! ## Lemmas: values -/

theorem ValueText.elementText {v : Json} {cs : List Char} (h : ValueText v cs) :
    ElementText v cs := by
  have := @ElementText.mk v [] cs [] nofun h nofun
  rwa [List.nil_append, List.append_nil] at this

theorem ElementsText.ne_nil {es : List Json} {cs : List Char} (h : ElementsText es cs) :
    es ≠ [] := by
  cases h <;> exact List.cons_ne_nil _ _

theorem MembersText.ne_nil {ms : List (String × Json)} {cs : List Char} (h : MembersText ms cs) :
    ms ≠ [] := by
  cases h <;> exact List.cons_ne_nil _ _

theorem elementTokens_cons {es : List Json} (h : es ≠ []) (v : Json) :
    elementTokens (v :: es) = v.tokens ++ .comma :: elementTokens es := by
  rw [elementTokens]
  exact h

theorem memberTokens_cons {ms : List (String × Json)} (h : ms ≠ []) (m : String × Json) :
    memberTokens (m :: ms) =
      .string m.1 :: .colon :: (m.2.tokens ++ .comma :: memberTokens ms) := by
  rw [memberTokens]
  exact h

/-- The characters are cut into the tokens, whatever ends a word behind them. -/
def CutInto (cs : List Char) (us : List Token) : Prop :=
  ∀ {rest ts}, EndsWord rest → Scans rest ts → Scans (cs ++ rest) (us ++ ts)

mutual

theorem ValueText.cutInto {v : Json} {cs : List Char} (h : ValueText v cs) :
    CutInto cs v.tokens := by
  intro rest ts hend hrest
  match h with
  | .null | .true | .false =>
    exact scans_word (by decide) (List.all_eq_true.1 rfl) rfl hend hrest
  | .number hn =>
    exact scans_word hn.ne_nil hn.all_isWordChar (scalar?_number hn.isNumber) hend hrest
  | .string hs =>
    have := scans_string hs hrest
    simpa [tokens] using this
  | .noElements hgap =>
    have hclose : Scans (']' :: rest) (.rightBracket :: ts) := scans_mark rfl hrest
    have : Scans ('[' :: _) (.leftBracket :: _) := scans_mark rfl (hgap.scans hclose)
    simpa [tokens, elementTokens] using this
  | .array hes =>
    have hclose : Scans (']' :: rest) (.rightBracket :: ts) := scans_mark rfl hrest
    have : Scans ('[' :: _) (.leftBracket :: _) :=
      scans_mark rfl (hes.cutInto (endsWord_cons rfl) hclose)
    simpa [tokens] using this
  | .noMembers hgap =>
    have hclose : Scans ('\x7d' :: rest) (.rightBrace :: ts) := scans_mark rfl hrest
    have : Scans ('\x7b' :: _) (.leftBrace :: _) := scans_mark rfl (hgap.scans hclose)
    simpa [tokens, memberTokens] using this
  | .object hms =>
    have hclose : Scans ('\x7d' :: rest) (.rightBrace :: ts) := scans_mark rfl hrest
    have : Scans ('\x7b' :: _) (.leftBrace :: _) :=
      scans_mark rfl (hms.cutInto (endsWord_cons rfl) hclose)
    simpa [tokens] using this

theorem ElementText.cutInto {v : Json} {cs : List Char} (h : ElementText v cs) :
    CutInto cs v.tokens := by
  intro rest ts hend hrest
  match h with
  | .mk hbefore hv hbehind =>
    have := hbefore.scans (hv.cutInto (hbehind.endsWord hend) (hbehind.scans hrest))
    simpa using this

theorem ElementsText.cutInto {es : List Json} {cs : List Char} (h : ElementsText es cs) :
    CutInto cs (elementTokens es) := by
  intro rest ts hend hrest
  match h with
  | .last hv => exact hv.cutInto hend hrest
  | .cons hv hes =>
    have hcomma : Scans (',' :: _) (.comma :: _) := scans_mark rfl (hes.cutInto hend hrest)
    have := hv.cutInto (endsWord_cons rfl) hcomma
    simpa [elementTokens_cons hes.ne_nil] using this

theorem MemberText.cutInto {m : String × Json} {cs : List Char} (h : MemberText m cs) :
    CutInto cs (.string m.1 :: .colon :: m.2.tokens) := by
  intro rest ts hend hrest
  match h with
  | .mk hbefore hkey hbehind hv =>
    have hcolon : Scans (':' :: _) (.colon :: _) := scans_mark rfl (hv.cutInto hend hrest)
    have := hbefore.scans (scans_string hkey (hbehind.scans hcolon))
    simpa using this

theorem MembersText.cutInto {ms : List (String × Json)} {cs : List Char}
    (h : MembersText ms cs) : CutInto cs (memberTokens ms) := by
  intro rest ts hend hrest
  match h with
  | .last hm => exact hm.cutInto hend hrest
  | .cons hm hms =>
    have hcomma : Scans (',' :: _) (.comma :: _) := scans_mark rfl (hms.cutInto hend hrest)
    have := hm.cutInto (endsWord_cons rfl) hcomma
    simpa [memberTokens_cons hms.ne_nil] using this

end

/-! ## Top theorem -/

/-- **A text of the grammar is read as the value that it spells.** -/
theorem read?_of_elementText {v : Json} {text : String} (h : ElementText v text.toList) :
    read? text = some v := by
  have hscan : Scans (text.toList ++ []) (v.tokens ++ []) := h.cutInto nofun scans_nil
  rw [List.append_nil, List.append_nil] at hscan
  unfold Scans at hscan
  unfold read?
  rw [hscan]
  exact ofTokens?_tokens v

end PictureSearch.Json

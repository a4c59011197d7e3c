import PictureSearch.Json.Printer
import PictureSearch.Json.Reader
import PictureSearch.Proofs.Json.Spelling

/-!
# Reading back what was written

A value that is written over lines is read back as it was, if its strings and numbers are spelled
the way JSON wants it:

    v.WellSpelled → read? v.pretty = some v                                      (read?_pretty)

`tokens` is what stands between the two.  Putting tokens together (`run_value`) knows of no
spelling, and cutting a text (`scans_prettyAt`) knows of no value: gaps may stand before any token,
and each lemma puts one token before a text that is cut already.
-/

namespace PictureSearch.Json

/-! ## Values with proper spellings -/

inductive WellSpelled : Json → Prop
  | null : WellSpelled .null
  | bool {b : Bool} : WellSpelled (.bool b)
  | number {s : String} :
      isNumber s.toList = true → (∀ c ∈ s.toList, isWordChar c = true) → WellSpelled (.number s)
  | string {s : String} : Spelling s.toList → WellSpelled (.string s)
  | array {es : List Json} : (∀ v ∈ es, WellSpelled v) → WellSpelled (.array es)
  | object {ms : List (String × Json)} :
      (∀ m ∈ ms, Spelling m.1.toList) → (∀ m ∈ ms, WellSpelled m.2) → WellSpelled (.object ms)

/-! ## Tokens of a value -/

mutual

def tokens : Json → List Token
  | .string s => [.string s]
  | .array es => .leftBracket :: (elementTokens es ++ [.rightBracket])
  | .object ms => .leftBrace :: (memberTokens ms ++ [.rightBrace])
  | .null => [.scalar .null]
  | .bool b => [.scalar (.bool b)]
  | .number s => [.scalar (.number s)]

def elementTokens : List Json → List Token
  | [] => []
  | [v] => v.tokens
  | v :: rest => v.tokens ++ .comma :: elementTokens rest

def memberTokens : List (String × Json) → List Token
  | [] => []
  | [(k, v)] => .string k :: .colon :: v.tokens
  | (k, v) :: rest => .string k :: .colon :: (v.tokens ++ .comma :: memberTokens rest)

end

/-! ## Lemmas: putting tokens together -/

namespace Assembly

mutual

theorem run_value (v : Json) {e : Expected} (he : e = .value ∨ e = .valueOrEnd)
    (outer : List Enclosure) :
    v.tokens.foldlM take ⟨e, outer, []⟩ = some ⟨.separator v, outer, []⟩ := by
  cases v with
  | null | bool | number | string =>
    rcases he with rfl | rfl <;> rfl
  | array es =>
    have hopen : take ⟨e, outer, []⟩ .leftBracket = some ⟨.valueOrEnd, .array [] :: outer, []⟩ := by
      rcases he with rfl | rfl <;> rfl
    rw [tokens, List.foldlM_cons, hopen]
    show List.foldlM take _ _ = _
    match es with
    | [] => rfl
    | v :: rest => exact run_elements (v :: rest) (List.cons_ne_nil _ _) (.inr rfl) [] outer
  | object ms =>
    have hopen : take ⟨e, outer, []⟩ .leftBrace = some ⟨.keyOrEnd, outer, []⟩ := by
      rcases he with rfl | rfl <;> rfl
    rw [tokens, List.foldlM_cons, hopen]
    show List.foldlM take _ _ = _
    match ms with
    | [] => rfl
    | m :: rest => exact run_members (m :: rest) (List.cons_ne_nil _ _) (.inr rfl) [] outer

theorem run_elements (es : List Json) (hne : es ≠ []) {e : Expected}
    (he : e = .value ∨ e = .valueOrEnd) (done : List Json) (outer : List Enclosure) :
    (elementTokens es ++ [Token.rightBracket]).foldlM take ⟨e, .array done :: outer, []⟩ =
      some ⟨.separator (.array (done.reverse ++ es)), outer, []⟩ := by
  match es with
  | [v] =>
    rw [elementTokens, List.foldlM_append, run_value v he]
    simp [take, takeSeparator]
  | v :: w :: es =>
    have hrest := run_elements (w :: es) (List.cons_ne_nil _ _) (.inl rfl) (v :: done) outer
    simp only [elementTokens, List.append_assoc]
    rw [List.foldlM_append, run_value v he]
    simpa [take, takeSeparator] using hrest

theorem run_members (ms : List (String × Json)) (hne : ms ≠ []) {e : Expected}
    (he : e = .key ∨ e = .keyOrEnd) (done : List (String × Json)) (outer : List Enclosure) :
    (memberTokens ms ++ [Token.rightBrace]).foldlM take ⟨e, outer, done⟩ =
      some ⟨.separator (.object (done.reverse ++ ms)), outer, []⟩ := by
  have hkey : ∀ key, take ⟨e, outer, done⟩ (.string key) = some ⟨.colon key, outer, done⟩ := by
    rcases he with rfl | rfl <;> exact fun _ => rfl
  match ms with
  | [(key, v)] =>
    have hvalue := run_value v (.inl rfl) (.object done key :: outer)
    simp only [memberTokens, List.cons_append, List.foldlM_cons, hkey]
    show List.foldlM take _ _ = _
    rw [List.foldlM_append, hvalue]
    simp [take, takeSeparator]
  | (key, v) :: m :: ms =>
    have hvalue := run_value v (.inl rfl) (.object done key :: outer)
    have hrest := run_members (m :: ms) (List.cons_ne_nil _ _) (.inl rfl) ((key, v) :: done) outer
    simp only [memberTokens, List.cons_append, List.append_assoc, List.foldlM_cons, hkey]
    show List.foldlM take _ _ = _
    rw [List.foldlM_append, hvalue]
    simpa [take, takeSeparator] using hrest

end

end Assembly

theorem ofTokens?_tokens (v : Json) : ofTokens? v.tokens = some v := by
  show v.tokens.foldlM Assembly.take ⟨.value, [], []⟩ >>= _ = _
  rw [Assembly.run_value v (.inl rfl)]
  rfl

/-! ## Lemmas: cutting a text -/

/-- Between two tokens the characters are cut into these. -/
def Scans (cs : List Char) (ts : List Token) : Prop := tokensFrom .gap cs = some ts

/-- A word or a number ends before the characters. -/
def EndsWord (cs : List Char) : Prop := ∀ c ∈ cs.head?, isWordChar c = false

section

variable {c : Char} {cs rest : List Char} {t : Token} {ts : List Token}

theorem scans_nil : Scans [] [] := rfl

theorem scans_gap (hc : isGap c = true) (h : Scans cs ts) : Scans (c :: cs) ts := by
  unfold Scans at h ⊢
  simp [tokensFrom, scanChar, scanGap, hc, h]

theorem scans_mark (hc : scanGap c = some ([t], .gap)) (h : Scans cs ts) :
    Scans (c :: cs) (t :: ts) := by
  unfold Scans at h ⊢
  simp [tokensFrom, scanChar, hc, h]

/-- A run of word characters, some of them read already. -/
theorem tokensFrom_word {read : List Char} (hcs : ∀ c ∈ cs, isWordChar c = true)
    (ht : scalar? (read.reverse ++ cs) = some t) (hend : EndsWord rest) (h : Scans rest ts) :
    tokensFrom (.word read) (cs ++ rest) = some (t :: ts) := by
  unfold Scans at h
  induction cs generalizing read with
  | nil =>
    rw [List.append_nil] at ht
    cases rest with
    | nil =>
      obtain rfl : [] = ts := Option.some.inj h
      simp [tokensFrom, ht]
    | cons c rest =>
      have hc : isWordChar c = false := hend c rfl
      obtain ⟨⟨us, next⟩, hgap, h⟩ := Option.bind_eq_some_iff.1 h
      obtain ⟨vs, hrest, hts⟩ := Option.bind_eq_some_iff.1 h
      obtain rfl : us ++ vs = ts := Option.some.inj hts
      have hgap : scanGap c = some (us, next) := hgap
      simp [tokensFrom, scanChar, hc, ht, hgap, hrest]
  | cons c cs ih =>
    rw [List.forall_mem_cons] at hcs
    have := @ih (c :: read) hcs.2 (by simpa using ht)
    simp [tokensFrom, scanChar, hcs.1, this]

theorem scanGap_of_isWordChar (hc : isWordChar c = true) : scanGap c = some ([], .word [c]) := by
  have hgap : isGap c = false := by
    rw [← Bool.not_eq_true]
    intro h
    simp only [isGap, Bool.or_eq_true, beq_iff_eq] at h
    rcases h with ((rfl | rfl) | rfl) | rfl <;> exact absurd hc (by decide)
  have hquote : c ≠ '"' := by
    rintro rfl
    exact absurd hc (by decide)
  simp [scanGap, hgap, hquote, hc]

theorem scans_word (hne : cs ≠ []) (hcs : ∀ d ∈ cs, isWordChar d = true)
    (ht : scalar? cs = some t) (hend : EndsWord rest) (h : Scans rest ts) :
    Scans (cs ++ rest) (t :: ts) := by
  obtain ⟨c, cs, rfl⟩ := List.exists_cons_of_ne_nil hne
  rw [List.forall_mem_cons] at hcs
  have hword := @tokensFrom_word cs rest t ts [c] hcs.2 ht hend h
  unfold Scans
  simp [tokensFrom, scanChar, scanGap_of_isWordChar hcs.1, hword]

/-- The characters between quotes, some of them read already. -/
theorem tokensFrom_text {read : List Char} (hcs : Spelling cs) (h : Scans rest ts) :
    tokensFrom (.text read) (cs ++ '"' :: rest) =
      some (.string (String.ofList (read.reverse ++ cs)) :: ts) := by
  unfold Scans at h
  induction hcs generalizing read with
  | nil => simp [tokensFrom, scanChar, h]
  | @char c cs hq hs hc _ ih =>
    have hc : ¬ c.toNat < 32 := Nat.not_lt.2 hc
    simp [tokensFrom, scanChar, hq, hs, hc, @ih (c :: read)]
  | @short c d cs hu hd _ ih =>
    simp [tokensFrom, scanChar, hu, hd, @ih (c :: '\\' :: read)]
  | @code a b x y n cs hn _ ih =>
    obtain ⟨va, ha, hn⟩ := Option.bind_eq_some_iff.1 hn
    obtain ⟨vb, hb, hn⟩ := Option.bind_eq_some_iff.1 hn
    obtain ⟨vx, hx, hn⟩ := Option.bind_eq_some_iff.1 hn
    obtain ⟨vy, hy, -⟩ := Option.bind_eq_some_iff.1 hn
    simp [tokensFrom, scanChar, ha, hb, hx, hy, @ih (y :: x :: b :: a :: 'u' :: '\\' :: read)]

theorem scans_string (hcs : Spelling cs) (h : Scans rest ts) :
    Scans ('"' :: (cs ++ '"' :: rest)) (.string (String.ofList cs) :: ts) := by
  have htext := @tokensFrom_text cs rest ts [] hcs h
  show tokensFrom .gap _ = _
  simpa [tokensFrom, scanChar, scanGap, isGap] using htext

theorem scans_quote {s : String} (hs : Spelling s.toList) (h : Scans rest ts) :
    Scans ((quote s).toList ++ rest) (.string s :: ts) := by
  have := scans_string hs h
  simpa [quote] using this

end

/-! ## Lemmas: written values -/

section

variable {rest : List Char} {ts : List Token}

theorem scans_newline (level : Nat) (h : Scans rest ts) :
    Scans ((newline level).toList ++ rest) ts := by
  have hspaces : ∀ n, Scans (List.replicate n ' ' ++ rest) ts := by
    intro n
    induction n with
    | zero => exact h
    | succ n ih => exact scans_gap rfl ih
  rw [newline, String.toList_ofList]
  exact scans_gap rfl (hspaces (2 * level))

theorem endsWord_cons {c : Char} (hc : isWordChar c = false) : EndsWord (c :: rest) := by
  intro d hd
  obtain rfl : c = d := by simpa using hd
  exact hc

theorem endsWord_newline (level : Nat) : EndsWord ((newline level).toList ++ rest) := by
  rw [newline, String.toList_ofList]
  exact endsWord_cons rfl

theorem scalar?_number {cs : List Char} (h : isNumber cs = true) :
    scalar? cs = some (.scalar (.number (String.ofList cs))) := by
  unfold scalar?
  split
  · next he => exact absurd (he ▸ h) (by decide)
  split
  · next he => exact absurd (he ▸ h) (by decide)
  split
  · next he => exact absurd (he ▸ h) (by decide)
  rfl

/-- The layout over lines is cut into the tokens of the value, at any level. -/
def Written (v : Json) : Prop :=
  ∀ level {rest ts}, EndsWord rest → Scans rest ts →
    Scans ((v.prettyAt level).toList ++ rest) (v.tokens ++ ts)

theorem written_scalar {v : Json} {spelling : String} (hv : ∀ level, v.prettyAt level = spelling)
    (ht : v.tokens = [.scalar v]) (hne : spelling.toList ≠ [])
    (hword : spelling.toList.all isWordChar = true)
    (hscalar : scalar? spelling.toList = some (.scalar v)) : Written v := by
  intro level rest ts hend h
  rw [hv, ht]
  exact scans_word hne (List.all_eq_true.1 hword) hscalar hend h

theorem scans_prettyElements (level : Nat) {es : List Json} (hes : ∀ v ∈ es, v.Written)
    (hend : EndsWord rest) (h : Scans rest ts) :
    Scans ((prettyElements level es).toList ++ rest) (elementTokens es ++ ts) := by
  induction es with
  | nil => exact h
  | cons v es ih =>
    rw [List.forall_mem_cons] at hes
    cases es with
    | nil =>
      have := scans_newline level (hes.1 level hend h)
      simpa [prettyElements, elementTokens] using this
    | cons w es =>
      have hcomma : Scans (',' :: _) (.comma :: _) := scans_mark rfl (ih hes.2)
      have := scans_newline level (hes.1 level (endsWord_cons rfl) hcomma)
      simpa [prettyElements, elementTokens] using this

theorem scans_member (level : Nat) {m : String × Json} (hkey : Spelling m.1.toList)
    (hv : m.2.Written) (hend : EndsWord rest) (h : Scans rest ts) :
    Scans ((newline level ++ quote m.1 ++ ": " ++ m.2.prettyAt level).toList ++ rest)
      (.string m.1 :: .colon :: (m.2.tokens ++ ts)) := by
  have hcolon : Scans (':' :: ' ' :: _) (.colon :: _) :=
    scans_mark rfl (scans_gap rfl (hv level hend h))
  have := scans_newline level (scans_quote hkey hcolon)
  simpa using this

theorem scans_prettyMembers (level : Nat) {ms : List (String × Json)}
    (hkeys : ∀ m ∈ ms, Spelling m.1.toList) (hms : ∀ m ∈ ms, m.2.Written)
    (hend : EndsWord rest) (h : Scans rest ts) :
    Scans ((prettyMembers level ms).toList ++ rest) (memberTokens ms ++ ts) := by
  induction ms with
  | nil => exact h
  | cons m ms ih =>
    rw [List.forall_mem_cons] at hkeys hms
    cases ms with
    | nil =>
      have := scans_member level hkeys.1 hms.1 hend h
      simpa [prettyMembers, memberTokens] using this
    | cons n ms =>
      have hcomma : Scans (',' :: _) (.comma :: _) := scans_mark rfl (ih hkeys.2 hms.2)
      have := scans_member level hkeys.1 hms.1 (endsWord_cons rfl) hcomma
      simpa [prettyMembers, memberTokens] using this

theorem WellSpelled.written {v : Json} (h : v.WellSpelled) : v.Written := by
  induction h with
  | null => exact written_scalar (fun _ => rfl) rfl (by decide) (by decide) rfl
  | @bool b =>
    cases b
    · exact written_scalar (fun _ => rfl) rfl (by decide) (by decide) rfl
    · exact written_scalar (fun _ => rfl) rfl (by decide) (by decide) rfl
  | @number s hnumber hword =>
    have hne : s.toList ≠ [] := by
      intro he
      rw [he] at hnumber
      cases hnumber
    have hscalar := scalar?_number hnumber
    rw [String.ofList_toList] at hscalar
    exact written_scalar (fun _ => rfl) rfl hne (List.all_eq_true.2 hword) hscalar
  | string hs =>
    intro level rest ts _ h
    exact scans_quote hs h
  | @array es _ ih =>
    intro level rest ts _ h
    have hclose : Scans (']' :: rest) (.rightBracket :: ts) := scans_mark rfl h
    cases es with
    | nil =>
      have : Scans ('[' :: _) (.leftBracket :: _) := scans_mark rfl hclose
      simpa [prettyAt, tokens, elementTokens] using this
    | cons v es =>
      have hline := scans_newline level hclose
      have helements := scans_prettyElements (level + 1) ih (endsWord_newline level) hline
      have : Scans ('[' :: _) (.leftBracket :: _) := scans_mark rfl helements
      simpa [prettyAt, tokens] using this
  | @object ms hkeys _ ih =>
    intro level rest ts _ h
    have hclose : Scans ('\x7d' :: rest) (.rightBrace :: ts) := scans_mark rfl h
    cases ms with
    | nil =>
      have : Scans ('\x7b' :: _) (.leftBrace :: _) := scans_mark rfl hclose
      simpa [prettyAt, tokens, memberTokens] using this
    | cons m ms =>
      have hline := scans_newline level hclose
      have hmembers := scans_prettyMembers (level + 1) hkeys ih (endsWord_newline level) hline
      have : Scans ('\x7b' :: _) (.leftBrace :: _) := scans_mark rfl hmembers
      simpa [prettyAt, tokens] using this

end

/-! ## Top theorem -/

/-- **A value that was written over lines is read back.** -/
theorem read?_pretty {v : Json} (h : v.WellSpelled) : read? v.pretty = some v := by
  have hscan : Scans (v.pretty.toList ++ []) (v.tokens ++ []) :=
    h.written 0 nofun scans_nil
  rw [List.append_nil, List.append_nil] at hscan
  unfold Scans at hscan
  unfold read?
  rw [hscan]
  exact ofTokens?_tokens v

end PictureSearch.Json

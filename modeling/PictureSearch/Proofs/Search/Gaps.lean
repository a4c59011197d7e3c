import PictureSearch.Proofs.Search.Cuts

/-!
# What fills the gaps of a pattern

A text fills a pattern if it is the literals of the pattern, letter for letter, with any text
whatever in place of each per cent sign.  A pattern asks for as many line feeds as its literals
have, so it finds such a text only if none of the gaps has one:

    Fills pattern gaps text → (Matches pattern text ↔ ∀ g ∈ gaps, '\n' ∉ g)
                                                                       (matches_iff_of_fills)

A lone per cent sign thus finds the comments of one line, and not every comment.
-/

namespace PictureSearch

open Query

/-! ## Statements -/

namespace Pattern

/-- The text is the pattern with the gaps, one after the other, in place of its per cent signs. -/
def Fills (pattern : List Char) (gaps : List (List Char)) (text : List Char) : Prop :=
  ∃ literals, pattern = ['%'].intercalate literals ∧ (∀ l ∈ literals, '%' ∉ l) ∧
    literals.length = gaps.length + 1 ∧ text = inTurn literals gaps

/-! ## Lemmas: line feeds -/

/-- Every folding of the table is past the line feed. -/
theorem foldBy_gt {n : Nat} (hn : 10 < n) {runs : List (Nat × Nat × Nat × Nat)}
    (hruns : ∀ run ∈ runs, 10 < run.2.2.2) : 10 < Text.foldBy runs n := by
  induction runs with
  | nil => exact hn
  | cons run rest ih =>
    obtain ⟨first, last, step, target⟩ := run
    obtain ⟨htarget, hrest⟩ := List.forall_mem_cons.1 hruns
    simp only at htarget
    unfold Text.foldBy
    split
    · exact hn
    · split
      · split <;> omega
      · exact ih hrest

theorem foldCase_eq_lineFeed_iff (c : Char) : Text.foldCase c = 10 ↔ c = '\n' := by
  have hsmall : ∀ n < 128, (Char.ofNat n).toLower.toNat = 10 → n = 10 := by decide
  have hruns : ∀ run ∈ Text.foldingRuns, 10 < run.2.2.2 := by decide +kernel
  constructor
  · intro h
    unfold Text.foldCase at h
    split at h
    · next hc =>
      have hten : c.toNat = 10 := hsmall c.toNat hc (by rwa [Char.ofNat_toNat])
      rw [← Char.ofNat_toNat c, hten]
    · have hgt : 10 < Text.foldBy Text.foldingRuns c.toNat := foldBy_gt (by omega) hruns
      omega
  · rintro rfl
    rfl

theorem eq_lineFeed_iff_of_sameFolded {p t : Char} (h : Text.sameFolded p t = true) :
    p = '\n' ↔ t = '\n' := by
  rw [← foldCase_eq_lineFeed_iff p, ← foldCase_eq_lineFeed_iff t, sameFolded_iff.1 h]

/-- A pattern matches only texts of as many lines as its own. -/
theorem count_lineFeed_of_matches {pattern text : List Char} (h : Matches pattern text) :
    text.count '\n' = pattern.count '\n' := by
  induction h with
  | nil => rfl
  | run hr _ ih =>
    rw [List.count_append, List.count_eq_zero.2 hr, ih, List.count_cons_of_ne (by decide)]
    exact Nat.zero_add _
  | @char p t _ _ _ hf _ ih =>
    have hpt := eq_lineFeed_iff_of_sameFolded hf
    by_cases hp : p = '\n'
    · rw [hp, hpt.1 hp, List.count_cons_self, List.count_cons_self, ih]
    · have ht : t ≠ '\n' := mt hpt.2 hp
      rw [List.count_cons_of_ne hp, List.count_cons_of_ne ht, ih]

/-! ## Lemmas: literals and gaps -/

theorem count_inTurn (a : Char) (stretches gaps : List (List Char)) :
    (inTurn stretches gaps).count a = stretches.flatten.count a + gaps.flatten.count a := by
  induction stretches, gaps using inTurn.induct with
  | case1 stretch stretches gap gaps ih =>
    simp only [inTurn, List.count_append, List.flatten_cons, ih]
    omega
  | case2 => simp [inTurn]
  | case3 => simp [inTurn]

theorem count_intercalate {a : Char} (ha : a ≠ '%') (literals : List (List Char)) :
    (['%'].intercalate literals).count a = literals.flatten.count a := by
  induction literals with
  | nil => rfl
  | cons l rest ih =>
    cases rest with
    | nil => simp
    | cons next rest =>
      rw [List.intercalate_cons_cons, List.count_append, List.count_append, ih,
        List.count_singleton, List.flatten_cons, List.count_append]
      simp [ha.symm]

/-- A text that fills a pattern is matched just where no gap goes past the end of a line. -/
theorem matches_iff_of_fills {pattern text : List Char} {gaps : List (List Char)}
    (h : Fills pattern gaps text) : Matches pattern text ↔ ∀ g ∈ gaps, '\n' ∉ g := by
  obtain ⟨literals, rfl, hl, hlen, rfl⟩ := h
  constructor
  · intro hm g hg hn
    have hcount := count_lineFeed_of_matches hm
    rw [count_inTurn, count_intercalate (by decide)] at hcount
    have hzero : gaps.flatten.count '\n' = 0 := by omega
    exact List.count_eq_zero.1 hzero (List.mem_flatten.2 ⟨g, hg, hn⟩)
  · intro hg
    have hs : List.Forall₂ Spells literals literals :=
      List.forall₂_same.2 fun _ _ => List.forall₂_same.2 fun _ _ => rfl
    exact matches_inTurn hs hl hg hlen

/-- A lone per cent sign is filled by any text. -/
theorem fills_run (text : List Char) : Fills ['%'] [text] text :=
  ⟨[[], []], rfl, by simp, rfl, by simp [inTurn]⟩

/-- A literal between per cent signs is filled by the texts that contain it. -/
theorem fills_infix {literal : List Char} (hl : '%' ∉ literal) (before after : List Char) :
    Fills ('%' :: (literal ++ ['%'])) [before, after] (before ++ (literal ++ after)) :=
  ⟨[[], literal, []], by simp, by simp [hl], rfl, by simp [inTurn]⟩

end Pattern

open Pattern

/-! ## Lemmas: queries -/

/-- A query that is one pattern finds the pictures of the viewer whose text the pattern matches. -/
theorem mem_matching_of_compile_like (c : Catalog) {exposed : List Attribute} {attr : Attribute}
    {value : Literal} {viewer : ViewerId} {p : Predicate}
    (hp : compile exposed (.ofNode (.compare ⟨attr.text, .like, value⟩)) viewer = .ok p)
    {id : ItemId} {item : Item} {text : String} (hi : c.item? id = some item)
    (hv : c.InScope item viewer) (ht : item.HasText attr text) :
    id ∈ c.matching p ↔ Matches value.operandText.toList text.toList := by
  rw [(c.matching_of_compile hp).2 id]
  constructor
  · rintro ⟨found, hf, _, hs⟩
    rw [hi] at hf
    cases hf
    obtain ⟨hs, _⟩ := hs
    rcases hs with ⟨_, _, _, hr⟩ | ⟨_, _, hr⟩ | ⟨ha, _, hs, hm⟩ | ⟨_, ho, _⟩
    · exact absurd rfl hr.isScalar.1
    · exact absurd rfl hr.isScalar.1
    · rw [Attribute.text_inj ha, ← Catalog.textValue?_eq_some_iff,
        (Catalog.textValue?_eq_some_iff item).2 ht, Option.some.injEq] at hs
      exact hs ▸ hm
    · cases ho
  · intro hm
    exact ⟨item, hi, hv, .like rfl rfl ht hm, trivial⟩

/-! ## Top theorem -/

/-- **No gap goes past the end of a line.** Of the viewer's pictures whose text fills a pattern, the
query finds those where no gap has a line feed: a lone per cent sign finds the texts of one line,
and a literal between per cent signs the texts with that literal and no line feed around it. -/
theorem matching_of_fills (c : Catalog) {exposed : List Attribute} {attr : Attribute}
    {value : Literal} {viewer : ViewerId} {p : Predicate}
    (hp : compile exposed (.ofNode (.compare ⟨attr.text, .like, value⟩)) viewer = .ok p)
    {id : ItemId} {item : Item} {text : String} (hi : c.item? id = some item)
    (hv : c.InScope item viewer) (ht : item.HasText attr text) :
    (∀ gaps, Fills value.operandText.toList gaps text.toList →
      (id ∈ c.matching p ↔ ∀ g ∈ gaps, '\n' ∉ g)) ∧
    (value.operandText = "%" → (id ∈ c.matching p ↔ '\n' ∉ text.toList)) ∧
    ∀ literal before after : List Char, '%' ∉ literal →
      value.operandText.toList = '%' :: (literal ++ ['%']) →
      text.toList = before ++ (literal ++ after) →
      (id ∈ c.matching p ↔ '\n' ∉ before ∧ '\n' ∉ after) := by
  have hgaps {gaps : List (List Char)} (h : Fills value.operandText.toList gaps text.toList) :
      id ∈ c.matching p ↔ ∀ g ∈ gaps, '\n' ∉ g :=
    (mem_matching_of_compile_like c hp hi hv ht).trans (matches_iff_of_fills h)
  refine ⟨fun _ => hgaps, fun hvalue => ?_, fun literal before after hl hvalue htext => ?_⟩
  · have hfill : Fills value.operandText.toList [text.toList] text.toList := by
      rw [hvalue]
      exact fills_run text.toList
    simpa using hgaps hfill
  · have hfill : Fills value.operandText.toList [before, after] text.toList := by
      rw [hvalue, htext]
      exact fills_infix hl before after
    simpa using hgaps hfill

/-- Viewer 2 keeps a picture with a comment of two lines. -/
def withLines : Catalog := Catalog.twoLibraries
  { name := "b.png", width := 90, height := 90, comment := some "first\nsecond" }

theorem exists_commented_withLines :
    ∃ item, withLines.item? ⟨1⟩ = some item ∧ withLines.InScope item ⟨2⟩ ∧
      item.HasText .comment "first\nsecond" := by
  refine ⟨_, rfl, (withLines.visibleTo_iff _ _).1 ?_, .comment rfl⟩
  decide +kernel

/-- A line feed of the pattern itself takes the one of the text. -/
theorem matching_of_fills_withLines :
    ∃ p item, compile Attribute.all (.ofNode (.compare ⟨"comment", .like, .text "%\nsecond"⟩)) ⟨2⟩ =
        .ok p ∧
      withLines.item? ⟨1⟩ = some item ∧ withLines.InScope item ⟨2⟩ ∧
      item.HasText .comment "first\nsecond" ∧
      Fills "%\nsecond".toList ["first".toList] "first\nsecond".toList ∧
      ⟨1⟩ ∈ withLines.matching p := by
  obtain ⟨item, hi, hv, ht⟩ := exists_commented_withLines
  have hp : compile Attribute.all
    (.ofNode (.compare ⟨Attribute.comment.text, .like, .text "%\nsecond"⟩)) ⟨2⟩ = .ok _ := rfl
  have hfill : Fills "%\nsecond".toList ["first".toList] "first\nsecond".toList :=
    ⟨[[], "\nsecond".toList], by decide, by decide, rfl, by decide⟩
  exact ⟨_, item, hp, hi, hv, ht, hfill,
    ((matching_of_fills withLines hp hi hv ht).1 _ hfill).2 (by decide)⟩

/-- A comment of two lines is text in place of the per cent sign, and is not found. -/
theorem not_mem_matching_withLines :
    ∃ p item, compileText Attribute.all "comment=%" ⟨2⟩ = .ok p ∧
      compile Attribute.all (.ofNode (.compare ⟨"comment", .like, .text "%"⟩)) ⟨2⟩ = .ok p ∧
      withLines.item? ⟨1⟩ = some item ∧ withLines.InScope item ⟨2⟩ ∧
      item.HasText .comment "first\nsecond" ∧
      Fills "%".toList ["first\nsecond".toList] "first\nsecond".toList ∧
      ⟨1⟩ ∉ withLines.matching p := by
  obtain ⟨item, hi, hv, ht⟩ := exists_commented_withLines
  have hparse : Query.parse "comment=%" = .ok (.ofNode (.compare ⟨"comment", .like, .text "%"⟩)) :=
    by decide +kernel
  have hp : compile Attribute.all
    (.ofNode (.compare ⟨Attribute.comment.text, .like, .text "%"⟩)) ⟨2⟩ = .ok _ := rfl
  have hfill := fills_run "first\nsecond".toList
  refine ⟨_, item, by rw [compileText, hparse]; rfl, hp, hi, hv, ht, hfill, ?_⟩
  rw [mem_matching_of_compile_like withLines hp hi hv ht]
  exact fun hm => (matches_iff_of_fills hfill).1 hm _ (List.mem_singleton_self _) (by decide)

end PictureSearch

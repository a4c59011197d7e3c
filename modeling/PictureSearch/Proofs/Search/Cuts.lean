import PictureSearch.Proofs.Search.Meaning

/-!
# Patterns and texts cut into pieces

A pattern is a row of literals with one per cent sign between each and the next.  It matches a text
that is a row of stretches with gaps between them: each stretch agrees with its literal character
by character up to case, and no gap holds a line feed.  The pictures that a compiled pattern finds
are those whose text can be cut so:

    id ∈ c.matching (.test (.like attr value.operandText)) ↔
      ∃ literals stretches gaps,
        IsCut value.operandText.toList text.toList literals stretches gaps
                                                                            (compile_like_iff_cut)
-/

namespace PictureSearch

/-! ## Statements -/

namespace Pattern

/-- A stretch of text spells a literal: as many characters, each the same up to case. -/
def Spells (literal stretch : List Char) : Prop :=
  List.Forall₂ (fun l s => Text.foldCase l = Text.foldCase s) literal stretch

/-- Stretches and gaps in turn: the first stretch, the first gap, the second stretch and so on. -/
def inTurn : (stretches gaps : List (List Char)) → List Char
  | stretch :: stretches, gap :: gaps => stretch ++ (gap ++ inTurn stretches gaps)
  | stretches, [] => stretches.flatten
  | [], gaps => gaps.flatten

/-- The literals are what a pattern has between its per cent signs, and the text is cut along with
it: a stretch for each literal and a gap for each sign. -/
structure IsCut (pattern text : List Char) (literals stretches gaps : List (List Char)) : Prop where
  pattern_eq : pattern = ['%'].intercalate literals
  literal : ∀ l ∈ literals, '%' ∉ l
  literals_length : literals.length = pattern.count '%' + 1
  gaps_length : gaps.length = pattern.count '%'
  spells : List.Forall₂ Spells literals stretches
  gap : ∀ g ∈ gaps, '\n' ∉ g
  text_eq : text = inTurn stretches gaps

/-! ## Lemmas: from rules to pieces -/

theorem sameFolded_iff {a b : Char} :
    Text.sameFolded a b = true ↔ Text.foldCase a = Text.foldCase b := by
  simp [Text.sameFolded]

/-- A character in front of a row lengthens its first piece. -/
theorem inTurn_cons_head (t : Char) (stretch : List Char) (stretches gaps : List (List Char)) :
    inTurn ((t :: stretch) :: stretches) gaps = t :: inTurn (stretch :: stretches) gaps := by
  cases gaps <;> rfl

theorem intercalate_cons_head (p : Char) (literal : List Char) (literals : List (List Char)) :
    ['%'].intercalate ((p :: literal) :: literals) =
      p :: ['%'].intercalate (literal :: literals) := by
  cases literals <;> simp

theorem exists_cut_of_matches {pattern text : List Char} (h : Matches pattern text) :
    ∃ literals stretches gaps, IsCut pattern text literals stretches gaps := by
  induction h with
  | nil => exact ⟨[[]], [[]], [], by simp, by simp, rfl, rfl, by simp [Spells], by simp, rfl⟩
  | @run run pattern text hr _ ih =>
    obtain ⟨literals, stretches, gaps, cut⟩ := ih
    refine ⟨[] :: literals, [] :: stretches, run :: gaps, ?_⟩
    have hne : literals ≠ [] := List.ne_nil_of_length_eq_add_one cut.literals_length
    refine
      { pattern_eq := ?_
        literal := List.forall_mem_cons.2 ⟨List.not_mem_nil, cut.literal⟩
        literals_length := by simp [cut.literals_length]
        gaps_length := by simp [cut.gaps_length]
        spells := .cons .nil cut.spells
        gap := List.forall_mem_cons.2 ⟨hr, cut.gap⟩
        text_eq := by rw [cut.text_eq]; rfl }
    obtain ⟨l, ls, rfl⟩ := List.exists_cons_of_ne_nil hne
    rw [cut.pattern_eq]
    simp
  | @char p t pattern text hp hf _ ih =>
    obtain ⟨literals, stretches, gaps, cut⟩ := ih
    -- the character belongs to the first literal, which every pattern has
    cases hs : cut.spells with
    | nil => simpa using cut.literals_length
    | @cons literal stretch literals stretches hl hls =>
      obtain ⟨hliteral, hliterals⟩ := List.forall_mem_cons.1 cut.literal
      refine ⟨(p :: literal) :: literals, (t :: stretch) :: stretches, gaps, ?_⟩
      exact
        { pattern_eq := by rw [intercalate_cons_head, ← cut.pattern_eq]
          literal := List.forall_mem_cons.2 ⟨by simp [hliteral, Ne.symm hp], hliterals⟩
          literals_length := by simpa [hp] using cut.literals_length
          gaps_length := by simpa [hp] using cut.gaps_length
          spells := .cons (.cons (sameFolded_iff.1 hf) hl) hls
          gap := cut.gap
          text_eq := by rw [inTurn_cons_head, ← cut.text_eq] }

/-! ## Lemmas: from pieces to rules -/

/-- A literal in front of a pattern takes the stretch that spells it. -/
theorem Matches.literal_append {literal stretch pattern text : List Char}
    (hs : Spells literal stretch) (hl : '%' ∉ literal) (hm : Matches pattern text) :
    Matches (literal ++ pattern) (stretch ++ text) := by
  induction hs with
  | nil => exact hm
  | cons hf _ ih =>
    rw [List.mem_cons, not_or] at hl
    exact .char (Ne.symm hl.1) (sameFolded_iff.2 hf) (ih hl.2)

theorem matches_inTurn {literals stretches gaps : List (List Char)}
    (hs : List.Forall₂ Spells literals stretches) (hl : ∀ l ∈ literals, '%' ∉ l)
    (hg : ∀ g ∈ gaps, '\n' ∉ g) (hlen : literals.length = gaps.length + 1) :
    Matches (['%'].intercalate literals) (inTurn stretches gaps) := by
  induction gaps generalizing literals stretches with
  | nil =>
    obtain ⟨literal, rfl⟩ := List.length_eq_one_iff.1 hlen
    obtain ⟨stretch, _, hls, ⟨⟩, rfl⟩ := List.forall₂_cons_left_iff.1 hs
    have hm := Matches.literal_append hls (hl literal (List.mem_singleton_self _)) .nil
    simpa [inTurn] using hm
  | cons gap gaps ih =>
    cases hs with
    | nil => cases hlen
    | @cons literal stretch literals stretches hls hrest =>
      obtain ⟨hgap, hgaps⟩ := List.forall_mem_cons.1 hg
      obtain ⟨hliteral, hliterals⟩ := List.forall_mem_cons.1 hl
      have hlen : literals.length = gaps.length + 1 := Nat.succ.inj hlen
      have hne : literals ≠ [] := List.ne_nil_of_length_eq_add_one hlen
      obtain ⟨next, rest, rfl⟩ := List.exists_cons_of_ne_nil hne
      have hm := Matches.run hgap (ih hrest hliterals hgaps hlen)
      have hm := hm.literal_append hls hliteral
      simpa [inTurn] using hm

theorem matches_iff_cut (pattern text : List Char) :
    Matches pattern text ↔
      ∃ literals stretches gaps, IsCut pattern text literals stretches gaps := by
  constructor
  · exact exists_cut_of_matches
  · rintro ⟨literals, stretches, gaps, cut⟩
    have hlen : literals.length = gaps.length + 1 := by
      rw [cut.literals_length, cut.gaps_length]
    have hm := matches_inTurn cut.spells cut.literal cut.gap hlen
    rwa [← cut.pattern_eq, ← cut.text_eq] at hm

/-- Without a per cent sign a pattern matches the texts that spell it. -/
theorem matches_literal_iff {pattern : List Char} (hp : '%' ∉ pattern) (text : List Char) :
    Matches pattern text ↔ Spells pattern text := by
  constructor
  · intro h
    induction h with
    | nil => exact .nil
    | run => exact absurd (List.mem_cons_self ..) hp
    | char _ hf _ ih =>
      rw [List.mem_cons, not_or] at hp
      exact .cons (sameFolded_iff.1 hf) (ih hp.2)
  · intro hs
    have hm := Matches.literal_append hs hp .nil
    simpa using hm

end Pattern

open Query Pattern

/-- A pattern on a text attribute compiles to the test of that pattern, unless it is too large. -/
theorem compileCompare_like {exposed : List Attribute} {attr : Attribute} (hm : attr ∈ exposed)
    (hk : attr.kind = .text) (value : Literal) :
    compileCompare exposed ⟨attr.text, .like, value⟩ =
      if isTooLarge value.operandText then .error (.invalidPattern value.operandText)
      else .ok (.test (.like attr value.operandText)) := by
  have hr : resolve exposed attr.text = .ok attr := resolve_eq_ok_iff.2 ⟨hm, rfl⟩
  have hc : checkOperands attr .like value = .ok () := by simp [checkOperands, hk]
  simp only [compileCompare, compileTest, hr, hc, bind, Except.bind]
  cases isTooLarge value.operandText <;> rfl

theorem mem_matching_like_iff (c : Catalog) {attr : Attribute} {id : ItemId} {item : Item}
    {text : String} (hi : c.item? id = some item) (ht : item.HasText attr text)
    (pattern : String) :
    id ∈ c.matching (.test (.like attr pattern)) ↔ Matches pattern.toList text.toList := by
  have hv : item.textValue? attr = some text := (Catalog.textValue?_eq_some_iff item).2 ht
  rw [c.mem_matching_iff, ← matchesText_iff]
  simp [Catalog.admits, Catalog.passes, hi, hv]

/-! ## Top theorem -/

/-- **A compiled pattern is anchored and folds case.** A pattern on a text attribute compiles
unless it is too large, and what it compiles to finds a picture exactly where the pattern and the
picture's text can be cut alike; without a per cent sign, where the text spells the pattern. -/
theorem compile_like_iff_cut (c : Catalog) {exposed : List Attribute} {attr : Attribute}
    (hm : attr ∈ exposed) (hk : attr.kind = .text) (value : Literal) :
    (compileCompare exposed ⟨attr.text, .like, value⟩ =
      if isTooLarge value.operandText then .error (.invalidPattern value.operandText)
      else .ok (.test (.like attr value.operandText))) ∧
    ∀ id item text, c.item? id = some item → item.HasText attr text →
      (id ∈ c.matching (.test (.like attr value.operandText)) ↔
        ∃ literals stretches gaps,
          IsCut value.operandText.toList text.toList literals stretches gaps) ∧
      ('%' ∉ value.operandText.toList →
        (id ∈ c.matching (.test (.like attr value.operandText)) ↔
          Spells value.operandText.toList text.toList)) := by
  refine ⟨compileCompare_like hm hk value, fun id item text hi ht => ⟨?_, fun hp => ?_⟩⟩
  · rw [mem_matching_like_iff c hi ht, matches_iff_cut]
  · rw [mem_matching_like_iff c hi ht, matches_literal_iff hp]

/-- Viewer 2 keeps a picture whose name has a bracket and ends twice. -/
def withBracket : Catalog :=
  Catalog.twoLibraries { name := "Ära[1].png.PNG", width := 90, height := 90 }

/-- A first gap that ended at the first `png` would leave nothing for the end of the pattern. -/
theorem compile_like_iff_cut_bracket :
    Attribute.name ∈ Attribute.all ∧ Attribute.name.kind = .text ∧
      (withBracket.item? ⟨1⟩).map (·.name) = some "Ära[1].png.PNG" ∧
      compileCompare Attribute.all ⟨"name", .like, .text "äRA[%.png"⟩ =
        .ok (.test (.like .name "äRA[%.png")) ∧
      ∃ literals stretches gaps,
        IsCut "äRA[%.png".toList "Ära[1].png.PNG".toList literals stretches gaps := by
  have hi : (withBracket.item? ⟨1⟩).map (·.name) = some "Ära[1].png.PNG" := by decide +kernel
  obtain ⟨item, hi', hn⟩ := Option.map_eq_some_iff.1 hi
  have hm : Attribute.name ∈ Attribute.all := by decide
  have h := compile_like_iff_cut withBracket hm rfl (.text "äRA[%.png")
  refine ⟨hm, rfl, hi, h.1, ?_⟩
  exact ((h.2 ⟨1⟩ item _ hi' (hn ▸ .name)).1).1 (by decide +kernel)

end PictureSearch

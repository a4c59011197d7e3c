import PictureSearch.Proofs.Query.Producible

/-!
# The canonical text of a query

The text that is written of a tree that was read is canonical: two queries that are read as one
tree have the same canonical text.  It is read as that tree again, but where a comparison stands
under 128 groups, since the parentheses that are written around it are one group too many:

    parse text = .ok g → (parse g.renderRoot = .ok g ↔ g.ComparisonsFit)
    parse text = .ok g → ¬ g.ComparisonsFit → TooDeep (parse g.renderRoot)
    parse text = .ok g → OpensAtMost 127 text g → parse g.renderRoot = .ok g
                                                                     (parse_renderRoot_of_parse)

Up to 128 negations before a comparison are read, and up to 127 are read back
(`parse_negatedText`).
-/

namespace PictureSearch.Query

/-! ## Statements -/

/-- Below the root no comparison stands under more than 127 groups. -/
def Group.ComparisonsFit (g : Group) : Prop :=
  ∀ c ∈ g.children, ∀ depth cmp, c.Holds depth (.compare cmp) → depth ≤ 127

/-- The text was refused, since too many groups would be open. -/
def TooDeep (outcome : Except SyntaxError Group) : Prop :=
  ∃ e, outcome = .error e ∧ e.message = "query nested too deeply"

/-- The tokens of the text derive the root with never more than that many groups open at once. -/
def OpensAtMost (room : Nat) (text : String) (g : Group) : Prop :=
  Clauses room ((scan text).lexemes.map Lexeme.token) g.children

/-- A comparison behind that many negations, with no parentheses. -/
def negatedText (k : Nat) : String := String.ofList (List.replicate k '!' ++ "rating>=3".toList)

/-! ## Lemmas: what was read -/

/-- Where all groups fit, only a comparison can stand too deep. -/
theorem Group.fits_iff_comparisonsFit {g : Group} (h : g.GroupsFit) :
    g.Fits ↔ g.ComparisonsFit := by
  constructor
  · intro hf c hc depth cmp hm
    exact hf c hc depth _ hm
  · intro hf c hc depth n hm
    cases n with
    | compare cmp => exact hf c hc depth cmp hm
    | group kind children => exact h c hc depth kind children hm

theorem wellFormed_of_parse {text : String} {g : Group} (h : parse text = .ok g) :
    g.WellFormed ∧ g.GroupsFit := by
  obtain ⟨hkind, hsound⟩ := sound_of_parse h
  have hwell : g.WellFormed := ⟨hkind, fun n hn => (hsound n hn).1⟩
  exact ⟨hwell, Group.groupsFit_iff.2 fun n hn => (hsound n hn).2⟩

/-- Without a comparison too deep the canonical text is read back, with one it is refused. -/
theorem readsBack_of_parse {text : String} {g : Group} (h : parse text = .ok g) :
    (g.ComparisonsFit → parse g.renderRoot = .ok g) ∧
      (¬ g.ComparisonsFit → TooDeep (parse g.renderRoot)) := by
  obtain ⟨hwell, hgroups⟩ := wellFormed_of_parse h
  obtain ⟨hread, hrefused⟩ := readsBack_renderRoot hwell
  rw [Group.fits_iff_comparisonsFit hgroups] at hread hrefused
  exact ⟨hread, hrefused⟩

theorem scan_of_parse {text : String} {g : Group} (h : parse text = .ok g) :
    (scan text).stop = none := by
  obtain ⟨p, -, hstop⟩ := bind_eq_ok_iff.1 h
  cases hs : (scan text).stop with
  | none => rfl
  | some e =>
    rw [hs] at hstop
    cases hstop

/-- A text that leaves one group unopened has room for the parentheses of its comparisons. -/
theorem comparisonsFit_of_opensAtMost {text : String} {g : Group} (h : parse text = .ok g)
    (hopen : OpensAtMost 127 text g) : g.ComparisonsFit := by
  have hlaid : Laid 0 text.toList (scan text).lexemes := by
    have hscan : scanFrom .start 0 text.toList = scan text := rfl
    exact (scanFrom_eq_iff.1 hscan).laid (scan_of_parse h)
  intro c hc depth cmp hm
  exact (hopen.sound hlaid.spelled c hc).2.depth_le hm

/-! ## Lemmas: negations -/

theorem compare_wellFormed : Compare.WellFormed ⟨"rating", .gte, .integer 3⟩ := by
  cases ratedUnsaid_wellFormed.children _ List.mem_cons_self with
  | compare hc => exact hc

/-- The tokens of a comparison behind that many negations. -/
def negatedTokens (k : Nat) : List Token :=
  List.replicate k .not ++ [.word "rating", .op .gte, .integer 3]

theorem reads_negatedText (k : Nat) : Reads .start (negatedText k).toList (negatedTokens k) := by
  rw [negatedText, String.toList_ofList]
  induction k with
  | zero =>
    have hread := reads_compare compare_wellFormed ends_nil reads_nil
    rwa [show Compare.render ⟨"rating", .gte, .integer 3⟩ = "rating>=3" by decide +kernel] at hread
  | succ k ih =>
    refine reads_bang ?_ ih
    cases k <;> simp [List.replicate_succ]

theorem clause_negatedTokens (room k : Nat) :
    Clause (room + k) (negatedTokens k) (negatedRating k) := by
  induction k with
  | zero => exact .comparison compare_wellFormed.comparison
  | succ k ih =>
    refine .bareNot ih ?_
    cases k <;> simp [List.replicate_succ]

/-- As many negations are read as groups may be open. -/
theorem parse_negatedText {k : Nat} (hk : k ≤ maxDepth) :
    parse (negatedText k) = .ok (.ofNode (negatedRating k)) := by
  obtain ⟨hstop, htokens⟩ := reads_negatedText k 0
  have hscan : scan (negatedText k) = ⟨(scan (negatedText k)).lexemes, none⟩ := by
    rw [← hstop]
    rfl
  have hclause := clause_negatedTokens (maxDepth - k) k
  rw [Nat.sub_add_cancel hk] at hclause
  have hclauses : Clauses maxDepth ((scan (negatedText k)).lexemes.map Lexeme.token)
      [negatedRating k] := by
    rw [scan, htokens]
    exact .singleton hclause
  unfold parse
  rw [hscan, parse_of_clauses hclauses]
  rfl

theorem comparisonsFit_negatedRating {k : Nat} :
    (Group.ofNode (negatedRating k)).ComparisonsFit ↔ k ≤ 127 := by
  constructor
  · intro h
    exact h _ List.mem_cons_self k _ (negatedRating_holds k)
  · intro hk c hc depth cmp hm
    obtain rfl := List.mem_singleton.1 hc
    exact Nat.le_trans ((negatedRating_groupsFitIn k).depth_le hm) hk

/-! ## Top theorem -/

/-- **Writing what was read.**  The canonical text of a query is read as the same tree just where no
comparison stands under 128 groups, and refused as too deep elsewhere.  A query that leaves one
group unopened is always read back. -/
theorem parse_renderRoot_of_parse {text : String} {g : Group} (h : parse text = .ok g) :
    (parse g.renderRoot = .ok g ↔ g.ComparisonsFit) ∧
      (¬ g.ComparisonsFit → TooDeep (parse g.renderRoot)) ∧
      (OpensAtMost 127 text g → parse g.renderRoot = .ok g) := by
  obtain ⟨hread, hrefused⟩ := readsBack_of_parse h
  refine ⟨⟨fun hback => ?_, hread⟩, hrefused, ?_⟩
  · by_contra hdeep
    obtain ⟨e, he, -⟩ := hrefused hdeep
    rw [hback] at he
    cases he
  · exact fun hopen => hread (comparisonsFit_of_opensAtMost h hopen)

theorem parse_renderRoot_of_parse_negatedText :
    parse (negatedText 127) = .ok (.ofNode (negatedRating 127)) ∧
      parse (Group.ofNode (negatedRating 127)).renderRoot = .ok (.ofNode (negatedRating 127)) ∧
      parse (negatedText 128) = .ok (.ofNode (negatedRating 128)) ∧
      TooDeep (parse (Group.ofNode (negatedRating 128)).renderRoot) := by
  have hread : parse (negatedText 127) = .ok (.ofNode (negatedRating 127)) :=
    parse_negatedText (by decide)
  have hdeep : parse (negatedText 128) = .ok (.ofNode (negatedRating 128)) :=
    parse_negatedText (by decide)
  refine ⟨hread, (parse_renderRoot_of_parse hread).1.2 ?_, hdeep,
    (parse_renderRoot_of_parse hdeep).2.1 ?_⟩
  · exact comparisonsFit_negatedRating.2 (by decide)
  · exact mt comparisonsFit_negatedRating.1 (by decide)

/-- Not every text that is read has a canonical text that is read. -/
theorem not_forall_parse_renderRoot :
    ¬ ∀ text g, parse text = .ok g → parse g.renderRoot = .ok g := by
  intro h
  have hdeep : parse (negatedText 128) = .ok (.ofNode (negatedRating 128)) :=
    parse_negatedText (by decide)
  obtain ⟨e, he, -⟩ := (readsBack_of_parse hdeep).2 (mt comparisonsFit_negatedRating.1 (by decide))
  rw [h _ _ hdeep] at he
  cases he

end PictureSearch.Query

import PictureSearch.Proofs.Query.RoundTrip

/-!
# The trees that texts are read as

Some text is read as a root just where the root is well formed and no group in it stands under more
than 127 others.  No part of a root that was read stands deeper than the parser counts.

    (∃ text, parse text = .ok g) ↔ g.WellFormed ∧ g.GroupsFit
    parse text = .ok g → c ∈ g.children → c.Holds depth n → depth ≤ maxDepth
                                                                    (exists_parse_eq_ok_iff)

`Group.renderRoot` does not write the deepest of these trees, since the parentheses around a
comparison open a group too.  `Node.spelling` does without them and puts a blank behind each clause.
-/

namespace PictureSearch.Query

/-! ## Statements -/

/-- Below the root no group stands under more than 127 groups; comparisons may. -/
def Group.GroupsFit (g : Group) : Prop :=
  ∀ c ∈ g.children, ∀ depth kind children, c.Holds depth (.group kind children) → depth ≤ 127

/-- Every group of the node stands under fewer groups than that. -/
def Node.GroupsFitIn (n : Node) (room : Nat) : Prop :=
  ∀ depth kind children, n.Holds depth (.group kind children) → depth < room

/-- Some text is cut into the token. -/
def Token.Spelled (t : Token) : Prop := ∃ cs, t.SpelledBy cs

/-! ## Lemmas: nesting -/

section

variable {n : Node} {ns : List Node} {kind : GroupKind} {room : Nat}

theorem Node.groupsFitIn_compare (c : Compare) (room : Nat) :
    (Node.compare c).GroupsFitIn room := by
  intro depth kind children h
  cases h

theorem Node.groupsFitIn_group :
    (Node.group kind ns).GroupsFitIn (room + 1) ↔ ∀ c ∈ ns, c.GroupsFitIn room := by
  constructor
  · intro h c hc depth kind children hm
    have := h (depth + 1) kind children (.under hc hm)
    omega
  · intro h depth kind children hm
    cases hm with
    | self => exact Nat.succ_pos room
    | under hc hm => exact Nat.succ_lt_succ (h _ hc _ _ _ hm)

theorem Node.not_groupsFitIn_zero : ¬ (Node.group kind ns).GroupsFitIn 0 :=
  fun h => Nat.not_lt_zero 0 (h 0 _ _ .self)

theorem Node.GroupsFitIn.succ (h : n.GroupsFitIn room) : n.GroupsFitIn (room + 1) :=
  fun depth kind children hm => Nat.lt_succ_of_lt (h depth kind children hm)

theorem Group.groupsFit_iff {g : Group} :
    g.GroupsFit ↔ ∀ c ∈ g.children, c.GroupsFitIn maxDepth :=
  forall₂_congr fun _ _ => forall₃_congr fun _ _ _ =>
    imp_congr_right fun _ => Nat.lt_succ_iff.symm

/-- A part that is no group itself stands just below one. -/
theorem Node.GroupsFitIn.depth_le (h : n.GroupsFitIn room) {depth : Nat} {m : Node}
    (hm : n.Holds depth m) : depth ≤ room := by
  induction hm generalizing room with
  | self => exact Nat.zero_le room
  | under hc _ ih =>
    cases room with
    | zero => exact absurd h Node.not_groupsFitIn_zero
    | succ room => exact Nat.succ_le_succ (ih (Node.groupsFitIn_group.1 h _ hc))

end

/-! ## Lemmas: what is read is well formed -/

theorem isAttributeName_of_isBareWord {s : String} (hw : isBareWord s = true)
    (hs : '%' ∉ s.toList) : IsAttributeName s := by
  obtain ⟨c, cs, hl, hc, hcs⟩ := isBareWord_iff.1 hw
  rw [hl, List.mem_cons, not_or] at hs
  refine ⟨c, cs, hl, ?_, ?_⟩
  · simpa [isWordStart, Ne.symm hs.1] using hc
  · intro d hd
    have hne : d ≠ '%' := fun he => hs.2 (he ▸ hd)
    simpa [isWordChar, hne] using hcs d hd

theorem isWordChar_of_mem {w : String} (hw : isBareWord w = true) {c : Char} (hc : c ∈ w.toList) :
    isWordChar c = true := by
  obtain ⟨d, ds, hl, hd, hds⟩ := isBareWord_iff.1 hw
  rw [hl] at hc
  rcases List.mem_cons.1 hc with rfl | hc
  · simp only [isWordStart, Bool.or_eq_true] at hd
    simp only [isWordChar, Bool.or_eq_true]
    exact hd.imp_left fun h => h.imp_left Text.isAlphanumeric_of_isAlphabetic
  · exact hds c hc

/-- One kind of quotes is left for a text that was read. -/
theorem text_of_spells {t : Token} {s : String} (ht : t.Spelled) (h : Spells t (.text s)) :
    '"' ∉ s.toList ∨ '\'' ∉ s.toList := by
  obtain ⟨cs, hcs⟩ := ht
  cases h with
  | word =>
    left
    intro hmem
    exact absurd (isWordChar_of_mem hcs.2 hmem) (by decide)
  | quoted =>
    obtain ⟨quote, hquote, hs, -⟩ := hcs
    rcases isQuote_iff.1 hquote with rfl | rfl
    · exact .inl hs
    · exact .inr hs

theorem integer_of_spells {t : Token} {n : Int64} (ht : t.Spelled) (h : Spells t (.integer n)) :
    0 ≤ n.toInt := by
  obtain ⟨cs, hcs⟩ := ht
  cases h
  rw [hcs.2.2]
  exact Int.natCast_nonneg _

theorem attributeName_of_spelled {attr : String} (ht : (Token.word attr).Spelled)
    (hattr : '%' ∉ attr.toList) : IsAttributeName attr := by
  obtain ⟨cs, -, hw⟩ := ht
  exact isAttributeName_of_isBareWord hw hattr

theorem relation_eq_like_iff {o : Operator} {value : Literal} :
    o.relation value = .like ↔ value.isWildcard = true := by
  unfold Operator.relation
  by_cases hv : value.isWildcard = true
  · simp [hv]
  · cases o <;> simp [hv, Operator.toOp]

theorem relation_ne_has {o : Operator} (ho : o ≠ .has) (value : Literal) :
    o.relation value ≠ .has := by
  unfold Operator.relation
  split
  · decide
  · cases o <;> first | decide | exact absurd rfl ho

theorem Comparison.wellFormed {ts : List Token} {c : Compare} (h : Comparison ts c)
    (hts : ∀ t ∈ ts, t.Spelled) : c.WellFormed := by
  cases h with
  | @scalar attr o t value hattr ho hvalue hneq =>
    have ht : t.Spelled := hts t (by simp)
    refine ⟨attributeName_of_spelled (hts _ (by simp)) hattr, ?_, ?_, ?_, ?_⟩
    · rintro n rfl
      exact integer_of_spells ht hvalue
    · rintro s rfl
      exact text_of_spells ht hvalue
    · exact relation_eq_like_iff.trans (iff_and_self.2 fun _ => relation_ne_has ho value)
    · exact fun he => absurd he (relation_ne_has ho value)
  | @membership t value attr hvalue hwild hattr =>
    have ht : t.Spelled := hts t (by simp)
    refine ⟨attributeName_of_spelled (hts _ (by simp)) hattr, ?_, ?_, ?_, fun _ => hwild⟩
    · rintro n rfl
      exact integer_of_spells ht hvalue
    · rintro s rfl
      exact text_of_spells ht hvalue
    · simp

/-- A node that the parser can produce where that many groups may be opened. -/
def Node.Sound (n : Node) (room : Nat) : Prop := n.WellFormed ∧ n.GroupsFitIn room

theorem sound_group {kind : GroupKind} {ns : List Node} {room : Nat}
    (hkind : kind = .not → ns.length = 1) (h : ∀ n ∈ ns, n.Sound room) :
    (Node.group kind ns).Sound (room + 1) :=
  ⟨.group hkind fun n hn => (h n hn).1, Node.groupsFitIn_group.2 fun n hn => (h n hn).2⟩

/-- One clause in bare parentheses may stand a group deeper than it needs. -/
theorem sound_enclosed {ns : List Node} {room : Nat} (h : ∀ n ∈ ns, n.Sound room) :
    (enclosed ns).Sound (room + 1) := by
  unfold enclosed
  split
  · next n =>
    obtain ⟨hn, hfits⟩ := h n List.mem_cons_self
    exact ⟨hn, hfits.succ⟩
  · exact sound_group nofun h

mutual

theorem Clause.sound {room : Nat} {ts : List Token} {n : Node} (h : Clause room ts n)
    (hts : ∀ t ∈ ts, t.Spelled) : n.Sound room := by
  cases h with
  | comparison hc => exact ⟨.compare (hc.wellFormed hts), Node.groupsFitIn_compare _ _⟩
  | parentheses hs => exact sound_enclosed (hs.sound fun t ht => hts t (by simp [ht]))
  | and hs => exact sound_group nofun (hs.sound fun t ht => hts t (by simp [ht]))
  | or hs => exact sound_group nofun (hs.sound fun t ht => hts t (by simp [ht]))
  | not hn =>
    have := hn.sound fun t ht => hts t (by simp [ht])
    exact sound_group (fun _ => rfl) (List.forall_mem_singleton.2 this)
  | bareNot hn _ =>
    have := hn.sound fun t ht => hts t (by simp [ht])
    exact sound_group (fun _ => rfl) (List.forall_mem_singleton.2 this)

theorem Clauses.sound {room : Nat} {ts : List Token} {ns : List Node} (h : Clauses room ts ns)
    (hts : ∀ t ∈ ts, t.Spelled) : ∀ n ∈ ns, n.Sound room := by
  cases h with
  | nil => exact nofun
  | cons hn hs =>
    rw [List.forall_mem_append] at hts
    exact List.forall_mem_cons.2 ⟨hn.sound hts.1, hs.sound hts.2⟩

end

theorem Laid.spelled {offset : Nat} {cs : List Char} {ls : List Lexeme} (h : Laid offset cs ls) :
    ∀ t ∈ ls.map Lexeme.token, t.Spelled := by
  induction h with
  | blanks => exact nofun
  | lexeme _ hs _ ih => exact List.forall_mem_cons.2 ⟨⟨_, hs⟩, ih⟩

theorem sound_of_parse {text : String} {g : Group} (h : parse text = .ok g) :
    g.kind = .and ∧ ∀ n ∈ g.children, n.Sound maxDepth := by
  unfold parse at h
  obtain ⟨ls, hscan⟩ : ∃ ls, scan text = ⟨ls, none⟩ := by
    obtain ⟨p, -, hstop⟩ := bind_eq_ok_iff.1 h
    cases hs : (scan text).stop with
    | none => exact ⟨_, by rw [← hs]⟩
    | some e =>
      rw [hs] at hstop
      cases hstop
  have hlaid : Laid 0 text.toList ls := (scanFrom_eq_iff.1 hscan).laid rfl
  rw [hscan] at h
  obtain ⟨ns, hns, rfl⟩ := clauses_of_parse h
  exact ⟨rfl, hns.sound hlaid.spelled⟩

/-! ## Lemmas: a text for every such tree -/

mutual

/-- The tree as a text with no parentheses but those of its groups. -/
def Node.spelling : Node → String
  | .compare c => c.render
  | .group kind children => kind.symbol ++ "(" ++ Node.spellings children ++ ")"

/-- Clauses, each with a blank behind it. -/
def Node.spellings : List Node → String
  | [] => ""
  | n :: ns => n.spelling ++ " " ++ Node.spellings ns

end

/-- The spelling is cut into tokens that derive the node, up to a character that ends it. -/
def Node.SpeltIn (n : Node) (room : Nat) : Prop :=
  ∃ ts, Clause room ts n ∧ ∀ {rest us}, Ends rest → Reads .start rest us →
    Reads .start (n.spelling.toList ++ rest) (ts ++ us)

section

variable {n : Node} {ns : List Node} {room : Nat}

theorem clause_group {kind : GroupKind} {ts : List Token} (hkind : kind = .not → ns.length = 1)
    (h : Clauses room ts ns) :
    Clause (room + 1) (kind.token :: .leftParen :: (ts ++ [.rightParen])) (.group kind ns) := by
  cases kind with
  | and => exact .and h
  | or => exact .or h
  | not =>
    obtain ⟨n, rfl⟩ := List.length_eq_one_iff.1 (hkind rfl)
    exact .not h.clause

theorem clauses_spellings (h : ∀ n ∈ ns, n.SpeltIn room) :
    ∃ ts, Clauses room ts ns ∧ ∀ {rest us}, Reads .start rest us →
      Reads .start ((Node.spellings ns).toList ++ rest) (ts ++ us) := by
  induction ns with
  | nil => exact ⟨[], .nil, fun h => h⟩
  | cons n ns ih =>
    obtain ⟨⟨ts, hclause, hreads⟩, hns⟩ := List.forall_mem_cons.1 h
    obtain ⟨tss, hclauses, hreadsAll⟩ := ih hns
    refine ⟨ts ++ tss, .cons hclause hclauses, ?_⟩
    intro rest us hrest
    have := hreads (ends_cons (by decide)) (reads_blank (hreadsAll hrest))
    simpa [Node.spellings] using this

theorem spelt_node (hn : n.WellFormed) (hf : n.GroupsFitIn room) : n.SpeltIn room := by
  induction hn generalizing room with
  | @compare c hc =>
    refine ⟨c.tokens, .comparison hc.comparison, ?_⟩
    intro rest us hend hrest
    rw [Node.spelling]
    exact reads_compare hc hend hrest
  | @group kind children hkind _ ih =>
    cases room with
    | zero => exact absurd hf Node.not_groupsFitIn_zero
    | succ room =>
      obtain ⟨ts, hclauses, hreads⟩ :=
        clauses_spellings fun c hc => ih c hc (Node.groupsFitIn_group.1 hf c hc)
      refine ⟨_, clause_group hkind hclauses, ?_⟩
      intro rest us _ hrest
      have hclose : Reads .start (')' :: rest) (.rightParen :: us) :=
        reads_sign (fun _ => rfl) hrest
      have hopen : Reads .start ('(' :: _) (.leftParen :: _) :=
        reads_sign (fun _ => rfl) (hreads hclose)
      have := reads_kind kind hopen (by simp)
      simpa [Node.spelling] using this

theorem parse_spellings {g : Group} (hg : g.WellFormed) (hf : g.GroupsFit) :
    parse (Node.spellings g.children) = .ok g := by
  rw [Group.groupsFit_iff] at hf
  obtain ⟨ts, hclauses, hreads⟩ :=
    clauses_spellings fun n hn => spelt_node (hg.children n hn) (hf n hn)
  obtain ⟨hstop, htokens⟩ := hreads reads_nil 0
  rw [List.append_nil] at hstop htokens
  have hscan : scan (Node.spellings g.children) =
      ⟨(scan (Node.spellings g.children)).lexemes, none⟩ := by
    rw [← hstop]
    rfl
  rw [List.append_nil] at htokens
  unfold parse
  rw [hscan, parse_of_clauses (by rw [scan, htokens]; exact hclauses), ← hg.kind]

end

/-! ## Top theorem -/

/-- **The trees that texts are read as** are the well-formed ones whose groups are not nested too
deeply, so that nothing in them stands under more groups than the parser keeps open. -/
theorem exists_parse_eq_ok_iff :
    (∀ g : Group, (∃ text, parse text = .ok g) ↔ g.WellFormed ∧ g.GroupsFit) ∧
      ∀ text g, parse text = .ok g →
        ∀ c ∈ g.children, ∀ depth n, c.Holds depth n → depth ≤ maxDepth := by
  constructor
  · intro g
    constructor
    · rintro ⟨text, h⟩
      obtain ⟨hkind, hsound⟩ := sound_of_parse h
      exact ⟨⟨hkind, fun n hn => (hsound n hn).1⟩, Group.groupsFit_iff.2 fun n hn => (hsound n hn).2⟩
    · rintro ⟨hg, hf⟩
      exact ⟨_, parse_spellings hg hf⟩
  · intro text g h c hc depth n hn
    exact ((sound_of_parse h).2 c hc).2.depth_le hn

/-- That many negations around a comparison. -/
def negatedRating : Nat → Node
  | 0 => .compare ⟨"rating", .gte, .integer 3⟩
  | k + 1 => .group .not [negatedRating k]

theorem negatedRating_wellFormed (k : Nat) : (negatedRating k).WellFormed := by
  induction k with
  | zero => exact ratedUnsaid_wellFormed.children _ List.mem_cons_self
  | succ k ih => exact .group (fun _ => rfl) (List.forall_mem_singleton.2 ih)

theorem negatedRating_groupsFitIn (k : Nat) : (negatedRating k).GroupsFitIn k := by
  induction k with
  | zero => exact Node.groupsFitIn_compare _ 0
  | succ k ih => exact Node.groupsFitIn_group.2 (List.forall_mem_singleton.2 ih)

theorem negatedRating_holds (k : Nat) : (negatedRating k).Holds k (negatedRating 0) := by
  induction k with
  | zero => exact .self
  | succ k ih => exact .under List.mem_cons_self ih

/-- The greatest depth is reached by a comparison, and is the greatest. -/
theorem exists_parse_eq_ok_iff_negatedRating :
    ∃ text, parse text = .ok (.ofNode (negatedRating 128)) ∧ 128 ≤ maxDepth ∧
      ¬ ∃ text, parse text = .ok (.ofNode (negatedRating 129)) := by
  obtain ⟨hread, hdepth⟩ := exists_parse_eq_ok_iff
  have hwell : (Group.ofNode (negatedRating 128)).WellFormed :=
    ⟨rfl, List.forall_mem_singleton.2 (negatedRating_wellFormed 128)⟩
  have hfit : (Group.ofNode (negatedRating 128)).GroupsFit :=
    Group.groupsFit_iff.2 (List.forall_mem_singleton.2 (negatedRating_groupsFitIn 128))
  obtain ⟨text, h⟩ := (hread _).2 ⟨hwell, hfit⟩
  refine ⟨text, h, hdepth text _ h _ List.mem_cons_self _ _ (negatedRating_holds 128), ?_⟩
  rintro ⟨deeper, h⟩
  have := hdepth deeper _ h _ List.mem_cons_self _ _ (negatedRating_holds 129)
  exact absurd this (by decide)

end PictureSearch.Query

import PictureSearch.Proofs.Query.Parsing
import PictureSearch.Proofs.Query.Spelling

/-!
# Reading back what was written

A well-formed tree is written as a text that is read as the tree, unless its groups are nested too
deeply; then the text is refused for just that reason:

    g.WellFormed → ReadsBack g.renderRoot g
    n.WellFormed → ReadsBack n.render (.ofNode n)                                   (parse_render)

The parentheses that are written around a comparison in a group open a group too, so that a
comparison may stand no deeper than a group.
-/

namespace PictureSearch.Query

/-! ## Nesting -/

/-- The second node stands in the first, under as many of its groups as the number says. -/
inductive Node.Holds : Node → Nat → Node → Prop
  | self {n : Node} : Holds n 0 n
  | under {kind : GroupKind} {children : List Node} {c n : Node} {depth : Nat} :
      c ∈ children → Holds c depth n → Holds (.group kind children) (depth + 1) n

/-- Below the root no group and no comparison stands under more than 127 groups. -/
def Group.Fits (g : Group) : Prop :=
  ∀ c ∈ g.children, ∀ depth n, c.Holds depth n → depth ≤ 127

/-- Every group and every comparison of the node stands under fewer groups than that. -/
def Node.FitsIn (n : Node) (room : Nat) : Prop := ∀ depth m, n.Holds depth m → depth < room

structure Group.WellFormed (g : Group) : Prop where
  kind : g.kind = .and
  children : ∀ n ∈ g.children, n.WellFormed

/-- The text is read as the root, or refused where the root is nested too deeply. -/
def ReadsBack (text : String) (g : Group) : Prop :=
  (g.Fits → parse text = .ok g) ∧
    (¬ g.Fits → ∃ e, parse text = .error e ∧ e.message = "query nested too deeply")

/-! ## Lemmas: nesting -/

theorem Node.fitsIn_compare {c : Compare} {room : Nat} :
    (Node.compare c).FitsIn room ↔ 0 < room := by
  constructor
  · intro h
    exact h 0 _ .self
  · intro h depth m hm
    cases hm
    exact h

theorem Node.not_fitsIn_zero (n : Node) : ¬ n.FitsIn 0 := fun h => Nat.not_lt_zero 0 (h 0 n .self)

theorem Node.fitsIn_group {kind : GroupKind} {children : List Node} {room : Nat} :
    (Node.group kind children).FitsIn (room + 1) ↔ ∀ c ∈ children, c.FitsIn room := by
  constructor
  · intro h c hc depth m hm
    have := h (depth + 1) m (.under hc hm)
    omega
  · intro h depth m hm
    cases hm with
    | self => exact Nat.succ_pos room
    | under hc hm => exact Nat.succ_lt_succ (h _ hc _ _ hm)

theorem Group.fits_iff {g : Group} : g.Fits ↔ ∀ c ∈ g.children, c.FitsIn maxDepth :=
  forall₂_congr fun _ _ => forall₂_congr fun _ _ => imp_congr_right fun _ => Nat.lt_succ_iff.symm

/-! ## Lemmas: what fits derives -/

/-- The sign that a group of the kind is written with. -/
def GroupKind.opening : GroupKind → Opening
  | .and => .and
  | .or => .or
  | .not => .not

theorem GroupKind.sign_opening (kind : GroupKind) : kind.opening.sign = [kind.token] := by
  cases kind <;> rfl

theorem tokensInside_group (kind : GroupKind) (children : List Node) :
    Node.tokensInside [.group kind children] =
      kind.token :: .leftParen :: (Node.tokensInside children ++ [.rightParen]) := by
  simp [Node.tokensInside, Node.tokens]

theorem tokensInside_eq_flatMap (ns : List Node) :
    Node.tokensInside ns = ns.flatMap fun n => Node.tokensInside [n] := by
  induction ns with
  | nil => rfl
  | cons n ns ih => rw [tokensInside_cons, List.flatMap_cons, ih]

theorem clauses_flatMap {room : Nat} {spell : Node → List Token} {ns : List Node}
    (h : ∀ n ∈ ns, Clause room (spell n) n) : Clauses room (ns.flatMap spell) ns := by
  induction ns with
  | nil => exact .nil
  | cons n ns ih =>
    exact .cons (h n List.mem_cons_self) (ih fun m hm => h m (List.mem_cons_of_mem _ hm))

theorem clause_inside {n : Node} (hn : n.WellFormed) {room : Nat} (hf : n.FitsIn room) :
    Clause room (Node.tokensInside [n]) n := by
  induction hn generalizing room with
  | @compare c hc =>
    have hpos : 0 < room := Node.fitsIn_compare.1 hf
    obtain ⟨room, rfl⟩ := Nat.exists_eq_add_one_of_ne_zero (Nat.ne_of_gt hpos)
    exact .parentheses (.singleton (.comparison hc.comparison))
  | @group kind children hk _ ih =>
    cases room with
    | zero => exact absurd hf (Node.not_fitsIn_zero _)
    | succ room =>
      have hin := fun c hc => ih c hc (Node.fitsIn_group.1 hf c hc)
      rw [tokensInside_group]
      cases kind with
      | and =>
        rw [tokensInside_eq_flatMap]
        exact .and (clauses_flatMap hin)
      | or =>
        rw [tokensInside_eq_flatMap]
        exact .or (clauses_flatMap hin)
      | not =>
        obtain ⟨c, rfl⟩ := List.length_eq_one_iff.1 (hk rfl)
        exact .not (hin c List.mem_cons_self)

theorem clause_node {n : Node} (hn : n.WellFormed) {room : Nat} (hf : n.FitsIn room) :
    Clause room n.tokens n := by
  cases n with
  | compare c =>
    cases hn with
    | compare hc => exact .comparison hc.comparison
  | group kind children =>
    have := clause_inside hn hf
    rwa [tokensInside_group] at this

/-! ## Lemmas: what does not fit is refused -/

namespace Parser

/-- The run ended where one group too many was opened. -/
def RefusesDepth (x : Except SyntaxError Parser) : Prop :=
  ∃ e, x = .error e ∧ e.cause = .tooDeep

theorem RefusesDepth.append {first rest : List Lexeme} {p : Parser}
    (h : RefusesDepth (first.foldlM feed p)) : RefusesDepth ((first ++ rest).foldlM feed p) := by
  obtain ⟨e, he, hc⟩ := h
  refine ⟨e, ?_, hc⟩
  rw [List.foldlM_append, he]
  rfl

section

variable {root : List Node} {stack : List Frame}

theorem refuses_opening {opening : Opening} {ls : List Lexeme} {more : List Token}
    (hl : ls.map Lexeme.token = opening.sign ++ .leftParen :: more)
    (hd : stack.length = maxDepth) : RefusesDepth (ls.foldlM feed (settled root stack)) := by
  have hopen : ∀ i b, (settled root stack).openGroup opening i b = .error ⟨.tooDeep, i⟩ := by
    intro i b
    unfold openGroup
    rw [if_pos (Nat.le_of_eq hd.symm)]
  cases opening with
  | bare =>
    obtain ⟨i, ls, rfl, -⟩ := exists_lexeme hl
    refine ⟨⟨.tooDeep, i⟩, ?_, rfl⟩
    show (settled root stack).openGroup .bare i true >>= _ = _
    rw [hopen]
    rfl
  | _ =>
    obtain ⟨i, ls, rfl, -⟩ := exists_lexeme hl
    refine ⟨⟨.tooDeep, i⟩, ?_, rfl⟩
    show ((settled root stack).openGroup _ i false >>= _) >>= _ = _
    rw [hopen]
    rfl

/-- Outside all groups, or in a group with its parenthesis: a clause found leaves as many groups
open as there were. -/
def Plain (stack : List Frame) : Prop := ∀ f ∈ stack.head?, f.parenthesized = true

theorem Plain.pushOnto (hp : Plain stack) (root : List Node) (n : Node) :
    (Parser.pushOnto root stack n).2.length = stack.length ∧
      Plain (Parser.pushOnto root stack n).2 := by
  cases stack with
  | nil => exact ⟨rfl, hp⟩
  | cons f stack =>
    have hf : f.parenthesized = true := hp f rfl
    simp [Parser.pushOnto, hf, Plain]

/-- Among clauses side by side the first that does not fit is met and refused. -/
theorem refuses_clauses {spell : Node → List Token} {room : Nat} {ns : List Node}
    (hclause : ∀ n ∈ ns, n.FitsIn room → Clause room (spell n) n)
    (hrefuse : ∀ n ∈ ns, ¬ n.FitsIn room → ∀ {root stack} {ls : List Lexeme},
      stack.length + room = maxDepth → ls.map Lexeme.token = spell n →
        RefusesDepth (ls.foldlM feed (settled root stack)))
    (hex : ∃ n ∈ ns, ¬ n.FitsIn room) (hp : Plain stack) (hd : stack.length + room = maxDepth)
    {ls : List Lexeme} (hl : ls.map Lexeme.token = ns.flatMap spell) :
    RefusesDepth (ls.foldlM feed (settled root stack)) := by
  induction ns generalizing root stack ls with
  | nil =>
    obtain ⟨n, hn, -⟩ := hex
    cases hn
  | cons n ns ih =>
    obtain ⟨first, rest, rfl, hfirst, hrest⟩ := List.map_eq_append_iff.1 hl
    by_cases hn : n.FitsIn room
    · have hrun := run_clause (hclause n List.mem_cons_self hn) root stack hd hfirst
      obtain ⟨hlength, hplain⟩ := hp.pushOnto root n
      rw [List.foldlM_append, hrun]
      apply ih
      · exact fun m hm => hclause m (List.mem_cons_of_mem _ hm)
      · exact fun m hm => hrefuse m (List.mem_cons_of_mem _ hm)
      · obtain ⟨m, hm, hmf⟩ := hex
        rcases List.mem_cons.1 hm with rfl | hm
        · exact absurd hn hmf
        · exact ⟨m, hm, hmf⟩
      · exact hplain
      · rw [hlength, hd]
      · exact hrest
    · exact (hrefuse n List.mem_cons_self hn hd hfirst).append

theorem refuses_inside {n : Node} (hn : n.WellFormed) {room : Nat} (hf : ¬ n.FitsIn room)
    {ls : List Lexeme} (hd : stack.length + room = maxDepth)
    (hl : ls.map Lexeme.token = Node.tokensInside [n]) :
    RefusesDepth (ls.foldlM feed (settled root stack)) := by
  induction hn generalizing room root stack ls with
  | @compare c hc =>
    have hroom : room = 0 := by
      rw [Node.fitsIn_compare] at hf
      omega
    exact @refuses_opening _ _ .bare _ _ hl (by omega)
  | @group kind children hk hs ih =>
    rw [tokensInside_group] at hl
    cases room with
    | zero =>
      refine @refuses_opening _ _ kind.opening _ (Node.tokensInside children ++ [.rightParen]) ?_ hd
      rw [hl, kind.sign_opening]
      rfl
    | succ room =>
      obtain ⟨opened, inner, rfl, hopened, hinner⟩ :=
        @List.map_eq_append_iff _ _ _ (kind.opening.sign ++ [.leftParen]) _ _ |>.1 (by
          rw [hl, kind.sign_opening]
          rfl)
      obtain ⟨inside, last, rfl, hinside, -⟩ := List.map_eq_append_iff.1 hinner
      obtain ⟨offset, hrun⟩ := run_opening root hopened (by omega : stack.length < maxDepth)
      rw [List.foldlM_append, hrun]
      rw [tokensInside_eq_flatMap] at hinside
      have hex : ∃ c ∈ children, ¬ c.FitsIn room := by
        rw [Node.fitsIn_group] at hf
        simpa using hf
      refine RefusesDepth.append
        (refuses_clauses (fun c hc => clause_inside (hs c hc)) ?_ hex ?_ ?_ hinside)
      · intro c hc hcf root stack ls hd hl
        exact ih c hc hcf hd hl
      · intro f hf
        cases hf
        rfl
      · show stack.length + 1 + room = maxDepth
        omega

theorem refuses_node {n : Node} (hn : n.WellFormed) {room : Nat} (hpos : 0 < room)
    (hf : ¬ n.FitsIn room) {ls : List Lexeme} (hd : stack.length + room = maxDepth)
    (hl : ls.map Lexeme.token = n.tokens) : RefusesDepth (ls.foldlM feed (settled root stack)) := by
  cases n with
  | compare c => exact absurd (Node.fitsIn_compare.2 hpos) hf
  | group kind children =>
    refine refuses_inside hn hf hd ?_
    rw [tokensInside_group]
    exact hl

end

end Parser

/-! ## Top theorem -/

theorem scan_renderRoot {g : Group} (hg : g.WellFormed) :
    ∃ ls, scan g.renderRoot = ⟨ls, none⟩ ∧
      ls.map Lexeme.token = g.children.flatMap Node.tokens := by
  obtain ⟨hstop, htokens⟩ := reads_clauses hg.children 0
  refine ⟨(scan g.renderRoot).lexemes, ?_, htokens⟩
  rw [← hstop]
  rfl

theorem readsBack_renderRoot {g : Group} (hg : g.WellFormed) : ReadsBack g.renderRoot g := by
  obtain ⟨ls, hscan, hls⟩ := scan_renderRoot hg
  unfold ReadsBack parse
  rw [hscan, Group.fits_iff]
  constructor
  · intro hf
    have hc : Clauses maxDepth (ls.map Lexeme.token) g.children := by
      rw [hls]
      exact clauses_flatMap fun n hn => clause_node (hg.children n hn) (hf n hn)
    rw [parse_of_clauses hc, ← hg.kind]
  · intro hf
    have hex : ∃ n ∈ g.children, ¬ n.FitsIn maxDepth := by simpa using hf
    obtain ⟨e, he, hcause⟩ := @Parser.refuses_clauses [] [] Node.tokens maxDepth g.children
      (fun n hn => clause_node (hg.children n hn))
      (fun n hn hnf _ _ _ => Parser.refuses_node (hg.children n hn) (by decide) hnf)
      hex (by intro f hf; cases hf) (Nat.zero_add _) ls hls
    refine ⟨e, ?_, ?_⟩
    · show ls.foldlM Parser.feed (Parser.settled [] []) >>= _ = _
      rw [he]
      rfl
    · unfold SyntaxError.message
      rw [hcause]
      rfl

theorem renderRoot_ofNode (n : Node) : (Group.ofNode n).renderRoot = n.render :=
  String.intercalate_singleton

/-- **Writing and reading back.**  A well-formed root, and likewise a well-formed node alone, is
read back from its text if nothing in it is nested too deeply, and is refused otherwise. -/
theorem parse_render :
    (∀ g : Group, g.WellFormed → ReadsBack g.renderRoot g) ∧
      ∀ n : Node, n.WellFormed → ReadsBack n.render (.ofNode n) := by
  refine ⟨fun g hg => readsBack_renderRoot hg, ?_⟩
  intro n hn
  rw [← renderRoot_ofNode]
  refine readsBack_renderRoot ⟨rfl, ?_⟩
  intro m hm
  rw [List.mem_singleton.1 hm]
  exact hn

/-- Pictures rated three or more without the tag `say "hi"`. -/
def ratedUnsaid : Group :=
  ⟨.and, [.compare ⟨"rating", .gte, .integer 3⟩,
    .group .not [.compare ⟨"tags", .has, .text "say \"hi\""⟩]]⟩

example : ratedUnsaid.renderRoot = "rating>=3 !(('say \"hi\"'@tags))" := by decide +kernel

/-- That many negations around an empty group. -/
def negations : Nat → Node
  | 0 => .group .and []
  | k + 1 => .group .not [negations k]

theorem ratedUnsaid_wellFormed : ratedUnsaid.WellFormed := by
  have hletters : ∀ cs : List Char, cs.all Text.isAlphabetic = true →
      ∀ d ∈ cs, Text.isAlphanumeric d = true ∨ d = '_' := fun cs h d hd =>
    .inl (Text.isAlphanumeric_of_isAlphabetic (List.all_eq_true.1 h d hd))
  have hrating : IsAttributeName "rating" :=
    ⟨'r', ['a', 't', 'i', 'n', 'g'], by decide, .inl (by decide), hletters _ (by decide)⟩
  have htags : IsAttributeName "tags" :=
    ⟨'t', ['a', 'g', 's'], by decide, .inl (by decide), hletters _ (by decide)⟩
  refine ⟨rfl, ?_⟩
  intro n hn
  rcases List.mem_cons.1 hn with rfl | hn
  · refine .compare ⟨hrating, ?_, nofun, by decide, nofun⟩
    rintro _ ⟨⟩
    decide
  · obtain rfl := List.mem_singleton.1 hn
    refine .group (fun _ => rfl) ?_
    intro m hm
    obtain rfl := List.mem_singleton.1 hm
    refine .compare ⟨htags, nofun, ?_, by decide, fun _ => by decide⟩
    rintro _ ⟨⟩
    exact .inr (by decide)

theorem ratedUnsaid_fits : ratedUnsaid.Fits := by
  rw [Group.fits_iff]
  intro n hn
  rcases List.mem_cons.1 hn with rfl | hn
  · exact Node.fitsIn_compare.2 (by decide)
  · obtain rfl := List.mem_singleton.1 hn
    refine Node.fitsIn_group.2 ?_
    intro m hm
    obtain rfl := List.mem_singleton.1 hm
    exact Node.fitsIn_compare.2 (by decide)

theorem negations_wellFormed (k : Nat) : (negations k).WellFormed := by
  induction k with
  | zero => exact .group nofun nofun
  | succ k ih =>
    refine .group (fun _ => rfl) ?_
    intro n hn
    rw [List.mem_singleton.1 hn]
    exact ih

theorem negations_holds (k : Nat) : (negations k).Holds k (.group .and []) := by
  induction k with
  | zero => exact .self
  | succ k ih => exact .under List.mem_cons_self ih

theorem parse_render_ratedUnsaid :
    ratedUnsaid.WellFormed ∧ parse ratedUnsaid.renderRoot = .ok ratedUnsaid ∧
      (negations 128).WellFormed ∧
        ∃ e, parse (negations 128).render = .error e ∧ e.message = "query nested too deeply" := by
  have hdeep : ¬ (Group.ofNode (negations 128)).Fits := by
    intro hf
    have := hf _ List.mem_cons_self _ _ (negations_holds 128)
    omega
  exact ⟨ratedUnsaid_wellFormed,
    (parse_render.1 ratedUnsaid ratedUnsaid_wellFormed).1 ratedUnsaid_fits,
    negations_wellFormed 128,
    (parse_render.2 (negations 128) (negations_wellFormed 128)).2 hdeep⟩

end PictureSearch.Query

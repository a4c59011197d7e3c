import PictureSearch.Proofs.Query.Grammar
import PictureSearch.Proofs.Query.Lexing

/-!
# The tokens of a written tree

`Node.tokens` is what the text of a tree is cut into, and where the tree is well formed the lexer
finds just that:

    (∀ n ∈ ns, n.WellFormed) → Reads .start rest ts →
      Reads .start ((Node.renderInside ns).toList ++ rest) (Node.tokensInside ns ++ ts)
                                                                             (reads_renderInside)
    (∀ n ∈ ns, n.WellFormed) →
      Reads .start (" ".intercalate (ns.map Node.render)).toList (ns.flatMap Node.tokens)
                                                                                   (reads_clauses)
-/

namespace PictureSearch.Query

/-! ## Trees that can be written -/

/-- A letter or an underscore, and behind it letters, digits and underscores. -/
def IsAttributeName (s : String) : Prop :=
  ∃ c cs, s.toList = c :: cs ∧ (Text.isAlphabetic c = true ∨ c = '_') ∧
    ∀ d ∈ cs, Text.isAlphanumeric d = true ∨ d = '_'

structure Compare.WellFormed (c : Compare) : Prop where
  attr : IsAttributeName c.attr
  integer : ∀ n, c.value = .integer n → 0 ≤ n.toInt
  text : ∀ s, c.value = .text s → '"' ∉ s.toList ∨ '\'' ∉ s.toList
  like : c.op = .like ↔ c.op ≠ .has ∧ c.value.isWildcard = true
  has : c.op = .has → c.value.isWildcard = false

inductive Node.WellFormed : Node → Prop
  | compare {c : Compare} : c.WellFormed → WellFormed (.compare c)
  | group {kind : GroupKind} {children : List Node} :
      (kind = .not → children.length = 1) → (∀ n ∈ children, WellFormed n) →
        WellFormed (.group kind children)

/-! ## Tokens -/

def Literal.token : Literal → Token
  | .integer n => .integer n
  | .text s => if isBareWord s then .word s else .quoted s

/-- The operator as it is written: a match asks for equality. -/
def Op.operator : Op → Operator
  | .eq => .eq
  | .neq => .neq
  | .gt => .gt
  | .lt => .lt
  | .gte => .gte
  | .lte => .lte
  | .like => .eq
  | .has => .has

def Compare.tokens (c : Compare) : List Token :=
  match c.op with
  | .has => [c.value.token, .op .has, .word c.attr]
  | op => [.word c.attr, .op op.operator, c.value.token]

def GroupKind.token : GroupKind → Token
  | .and => .and
  | .or => .or
  | .not => .not

mutual

def Node.tokens : Node → List Token
  | .compare c => c.tokens
  | .group kind children =>
    kind.token :: .leftParen :: (Node.tokensInside children ++ [.rightParen])

def Node.tokensInside : List Node → List Token
  | [] => []
  | .compare c :: rest => .leftParen :: (c.tokens ++ .rightParen :: Node.tokensInside rest)
  | .group kind children :: rest => Node.tokens (.group kind children) ++ Node.tokensInside rest

end

/-! ## Lemmas: words and literals -/

theorem IsAttributeName.isBareWord {s : String} (h : IsAttributeName s) : isBareWord s = true := by
  obtain ⟨c, cs, hs, hc, hcs⟩ := h
  refine isBareWord_iff.2 ⟨c, cs, hs, ?_, ?_⟩
  · rcases hc with hc | rfl
    · simp [isWordStart, hc]
    · decide
  · intro d hd
    rcases hcs d hd with hd | rfl
    · simp [isWordChar, hd]
    · decide

theorem IsAttributeName.percent_not_mem {s : String} (h : IsAttributeName s) :
    '%' ∉ s.toList := by
  obtain ⟨c, cs, hs, hc, hcs⟩ := h
  rw [hs]
  intro hm
  rcases List.mem_cons.1 hm with rfl | hm
  · revert hc
    decide
  · have := hcs _ hm
    revert this
    decide

theorem spells_token (value : Literal) : Spells value.token value := by
  cases value with
  | integer n => exact .integer
  | text s =>
    show Spells (if isBareWord s then .word s else .quoted s) (.text s)
    split
    · exact .word
    · exact .quoted

/-! ## Lemmas: comparisons -/

section

variable {c : Compare}

theorem Compare.tokens_of_has (h : c.op = .has) :
    c.tokens = [c.value.token, .op .has, .word c.attr] := by
  unfold Compare.tokens
  rw [h]

theorem Compare.tokens_of_ne_has (h : c.op ≠ .has) :
    c.tokens = [.word c.attr, .op c.op.operator, c.value.token] := by
  unfold Compare.tokens
  split
  · next ho => exact absurd ho h
  · rfl

theorem Compare.render_of_has (h : c.op = .has) : c.render = c.value.render ++ "@" ++ c.attr := by
  unfold Compare.render
  rw [h]

theorem Compare.render_of_ne_has (h : c.op ≠ .has) :
    c.render = c.attr ++ c.op.operator.symbol ++ c.value.render := by
  have hs : c.op.symbol = c.op.operator.symbol := by cases c.op <;> rfl
  unfold Compare.render
  split
  · next ho => exact absurd ho h
  · rw [hs]

theorem Compare.WellFormed.relation_operator (h : c.WellFormed) (ho : c.op ≠ .has) :
    c.op.operator.relation c.value = c.op := by
  unfold Operator.relation
  by_cases hw : c.value.isWildcard = true
  · rw [if_pos hw]
    exact (h.like.2 ⟨ho, hw⟩).symm
  · have hl : c.op ≠ .like := fun hl => hw (h.like.1 hl).2
    rw [if_neg hw]
    cases hop : c.op with
    | like => exact absurd hop hl
    | _ => rfl

theorem Compare.WellFormed.comparison (h : c.WellFormed) : Comparison c.tokens c := by
  have hattr := h.attr.percent_not_mem
  by_cases ho : c.op = .has
  · have hc : c = ⟨c.attr, .has, c.value⟩ := by rw [← ho]
    rw [Compare.tokens_of_has ho, hc]
    exact .membership (spells_token c.value) (h.has ho) hattr
  · have hoperator : c.op.operator ≠ .has := by
      intro he
      cases hop : c.op <;> simp [hop, Op.operator] at he ho
    have hneq : c.value.isWildcard = true → c.op.operator ≠ .neq := by
      intro hw
      rw [h.like.2 ⟨ho, hw⟩]
      decide
    have hs := Comparison.scalar hattr hoperator (spells_token c.value) hneq
    rw [h.relation_operator ho] at hs
    rw [Compare.tokens_of_ne_has ho]
    exact hs

end

/-! ## Lemmas: reading what was written -/

section

variable {rest : List Char} {ts : List Token}

theorem ends_nil : Ends [] := by
  intro c hc
  cases hc

theorem ends_cons {c : Char} (h : isWordChar c = false ∧ isQuote c = false) : Ends (c :: rest) := by
  intro d hd
  obtain rfl : c = d := by simpa using hd
  exact h

theorem reads_literal {value : Literal} (hi : ∀ n, value = .integer n → 0 ≤ n.toInt)
    (ht : ∀ s, value = .text s → '"' ∉ s.toList ∨ '\'' ∉ s.toList) (hend : Ends rest)
    (h : Reads .start rest ts) :
    Reads .start (value.render.toList ++ rest) (value.token :: ts) := by
  cases value with
  | integer n => exact reads_integer (hi n rfl) hend h
  | text s =>
    show Reads .start ((if isBareWord s then s else _).toList ++ rest)
      ((if isBareWord s then .word s else .quoted s) :: ts)
    by_cases hw : isBareWord s = true
    · rw [if_pos hw, if_pos hw]
      exact reads_word hw hend h
    · rw [if_neg hw, if_neg hw]
      by_cases hq : '"' ∈ s.toList
      · have hs : '\'' ∉ s.toList := (ht s rfl).resolve_left fun hn => hn hq
        have := reads_quoted (by decide) hs h
        simpa [hq] using this
      · have := reads_quoted (by decide) hq h
        simpa [hq] using this

/-- No literal starts with an equals sign, so that none is taken for a part of the operator. -/
theorem render_head_ne_equals (value : Literal) (hi : ∀ n, value = .integer n → 0 ≤ n.toInt) :
    (value.render.toList ++ rest).head? ≠ some '=' := by
  cases value with
  | integer n =>
    obtain ⟨k, -, -, hdigits⟩ := exists_digits (hi n rfl)
    obtain ⟨c, cs, hcs⟩ := List.exists_cons_of_ne_nil (@Nat.toDigits_ne_nil k 10)
    have hc : c.isDigit = true := isDigit_of_mem_toDigits (hcs ▸ List.mem_cons_self)
    show ((toString n.toInt).toList ++ rest).head? ≠ some '='
    rw [hdigits, hcs]
    intro he
    obtain rfl : c = '=' := by simpa using he
    revert hc
    decide
  | text s =>
    show ((if isBareWord s then s else _).toList ++ rest).head? ≠ some '='
    by_cases hw : isBareWord s = true
    · obtain ⟨c, cs, hs, hc, -⟩ := isBareWord_iff.1 hw
      rw [if_pos hw, hs]
      intro he
      obtain rfl : c = '=' := by simpa using he
      revert hc
      decide
    · rw [if_neg hw]
      split <;> simp

theorem symbol_head (o : Operator) :
    ∃ c cs, o.symbol.toList = c :: cs ∧ isWordChar c = false ∧ isQuote c = false := by
  cases o <;> exact ⟨_, _, rfl, by decide, by decide⟩

theorem reads_compare {c : Compare} (hc : c.WellFormed) (hend : Ends rest)
    (h : Reads .start rest ts) : Reads .start (c.render.toList ++ rest) (c.tokens ++ ts) := by
  by_cases ho : c.op = .has
  · rw [Compare.render_of_has ho, Compare.tokens_of_has ho]
    have hattr := reads_word hc.attr.isBareWord hend h
    have hat : Reads .start ('@' :: (c.attr.toList ++ rest)) (.op .has :: .word c.attr :: ts) :=
      reads_sign (fun _ => rfl) hattr
    have hvalue := reads_literal hc.integer hc.text (ends_cons (by decide)) hat
    simpa using hvalue
  · rw [Compare.render_of_ne_has ho, Compare.tokens_of_ne_has ho]
    have hvalue := reads_literal hc.integer hc.text hend h
    have hop := reads_op c.op.operator (render_head_ne_equals c.value hc.integer) hvalue
    obtain ⟨d, ds, hsymbol, hd⟩ := symbol_head c.op.operator
    have hend' : Ends (c.op.operator.symbol.toList ++ (c.value.render.toList ++ rest)) := by
      rw [hsymbol]
      exact ends_cons hd
    have hattr := reads_word hc.attr.isBareWord hend' hop
    simpa using hattr

theorem reads_kind (kind : GroupKind) (h : Reads .start rest ts) (hne : rest.head? ≠ some '=') :
    Reads .start (kind.symbol.toList ++ rest) (kind.token :: ts) := by
  cases kind with
  | and => exact reads_sign (fun _ => rfl) h
  | or => exact reads_sign (fun _ => rfl) h
  | not => exact reads_bang hne h

theorem renderInside_cons (n : Node) (ns : List Node) :
    Node.renderInside (n :: ns) = Node.renderInside [n] ++ Node.renderInside ns := by
  cases n <;> simp [Node.renderInside]

theorem tokensInside_cons (n : Node) (ns : List Node) :
    Node.tokensInside (n :: ns) = Node.tokensInside [n] ++ Node.tokensInside ns := by
  cases n <;> simp [Node.tokensInside]

/-- In a group every node is read, whatever stands behind it. -/
theorem reads_inside {n : Node} (hn : n.WellFormed) (h : Reads .start rest ts) :
    Reads .start ((Node.renderInside [n]).toList ++ rest) (Node.tokensInside [n] ++ ts) := by
  induction hn generalizing rest ts with
  | @compare c hc =>
    have hclose : Reads .start (')' :: rest) (.rightParen :: ts) := reads_sign (fun _ => rfl) h
    have hcompare := reads_compare hc (ends_cons (by decide)) hclose
    have hopen : Reads .start ('(' :: _) (.leftParen :: _) := reads_sign (fun _ => rfl) hcompare
    simpa [Node.renderInside, Node.tokensInside] using hopen
  | @group kind children _ _ ih =>
    have hinside : ∀ ns : List Node, (∀ n ∈ ns, n ∈ children) → ∀ {rest ts}, Reads .start rest ts →
        Reads .start ((Node.renderInside ns).toList ++ rest) (Node.tokensInside ns ++ ts) := by
      intro ns hns
      induction ns with
      | nil => exact fun h => h
      | cons n ns ihns =>
        intro rest ts h
        have hrest := ihns (fun m hm => hns m (List.mem_cons_of_mem _ hm)) h
        have := ih n (hns n List.mem_cons_self) hrest
        rw [renderInside_cons, tokensInside_cons]
        simpa using this
    have hclose : Reads .start (')' :: rest) (.rightParen :: ts) := reads_sign (fun _ => rfl) h
    have hchildren := hinside children (fun _ hm => hm) hclose
    have hopen : Reads .start ('(' :: _) (.leftParen :: _) := reads_sign (fun _ => rfl) hchildren
    have := reads_kind kind hopen (by simp)
    simpa [Node.renderInside, Node.tokensInside, Node.render, Node.tokens] using this

/-- A node that stands alone is read up to a character that ends it. -/
theorem reads_node {n : Node} (hn : n.WellFormed) (hend : Ends rest) (h : Reads .start rest ts) :
    Reads .start (n.render.toList ++ rest) (n.tokens ++ ts) := by
  cases n with
  | compare c =>
    cases hn with
    | compare hc => exact reads_compare hc hend h
  | group kind children =>
    have := reads_inside hn h
    simpa [Node.renderInside, Node.tokensInside] using this

/-- Clauses side by side, with a blank between each two. -/
theorem reads_clauses {ns : List Node} (hns : ∀ n ∈ ns, n.WellFormed) :
    Reads .start (" ".intercalate (ns.map Node.render)).toList (ns.flatMap Node.tokens) := by
  induction ns with
  | nil => exact reads_nil
  | cons n ns ih =>
    have hn := hns n List.mem_cons_self
    have hrest := ih fun m hm => hns m (List.mem_cons_of_mem _ hm)
    cases ns with
    | nil =>
      have := reads_node hn ends_nil reads_nil
      simpa using this
    | cons m ns =>
      have := reads_node hn (ends_cons (by decide)) (reads_blank hrest)
      simpa [String.intercalate_cons_cons] using this

end

end PictureSearch.Query

import PictureSearch.Proofs.Query.Running

/-!
# Parsing is deriving

The parser accepts what the grammar derives and builds the tree of the derivation:

    Scan.parse ⟨lexemes, none⟩ stop = .ok g ↔
      g.kind = .and ∧ Clauses maxDepth (lexemes.map Lexeme.token) g.children
                                                                          (parse_eq_ok_iff)

What derives is run through by `run_clause`.  For the way back `Completes` says that the tokens
still to come close the groups that are open.  A state in the middle of a comparison, or behind a
combinator, is the state before it with the tokens since then handed back (`HalfRead`).
-/

namespace PictureSearch.Query

namespace Parser

/-- From between two clauses, the tokens close every open group and the root is then `g`. -/
inductive Completes : List Node → List Frame → List Token → Group → Prop
  | done {root : List Node} : Completes root [] [] ⟨.and, root⟩
  | clause {root : List Node} {stack : List Frame} {ts us : List Token} {n : Node} {g : Group} :
      Clause (maxDepth - stack.length) ts n →
        Completes (pushOnto root stack n).1 (pushOnto root stack n).2 us g →
          Completes root stack (ts ++ us) g
  | close {root : List Node} {f : Frame} {stack : List Frame} {n : Node} {us : List Token}
      {g : Group} :
      f.parenthesized = true → f.toNode = .ok n →
        Completes (pushOnto root stack n).1 (pushOnto root stack n).2 us g →
          Completes root (f :: stack) (.rightParen :: us) g

/-- The state was reached from between two clauses by tokens that have completed nothing yet. -/
inductive HalfRead : Parser → List Node → List Frame → List Token → Prop
  | settled {root : List Node} {stack : List Frame} : HalfRead (settled root stack) root stack []
  | leading {root : List Node} {stack : List Frame} {t : Token} {w : Operand} {offset : Nat} :
      t.operand? = some w → HalfRead ⟨root, stack, .leading w offset, false⟩ root stack [t]
  | operator {root : List Node} {stack : List Frame} {attr : String} {o : Operator} :
      '%' ∉ attr.toList → o ≠ .has →
        HalfRead ⟨root, stack, .operator attr o, false⟩ root stack [.word attr, .op o]
  | has {root : List Node} {stack : List Frame} {t : Token} {value : Literal} :
      Spells t value → value.isWildcard = false →
        HalfRead ⟨root, stack, .has value, false⟩ root stack [t, .op .has]
  | combinator {root : List Node} {stack : List Frame} {opening : Opening} {offset : Nat} :
      stack.length < maxDepth →
        HalfRead ⟨root, ⟨opening, [], offset, false⟩ :: stack, .nothing, true⟩ root stack
          opening.sign

/-- The tokens complete the state, those handed back before them. -/
def Demands (p : Parser) (us : List Token) (g : Group) : Prop :=
  ∀ root stack ts, HalfRead p root stack ts → Completes root stack (ts ++ us) g

/-- A frame with its parenthesis, closed behind the clauses in it. -/
theorem clause_of_toNode {opening : Opening} {offset room : Nat} {ts : List Token}
    {ns : List Node} {n : Node} (h : Frame.toNode ⟨opening, ns, offset, true⟩ = .ok n)
    (hs : Clauses room ts ns) :
    Clause (room + 1) (opening.sign ++ .leftParen :: (ts ++ [.rightParen])) n := by
  cases opening with
  | bare =>
    have : n = enclosed ns := by
      unfold Frame.toNode at h
      split at h <;> simp_all [enclosed]
    rw [this]
    exact .parentheses hs
  | and => cases h; exact .and hs
  | or => cases h; exact .or hs
  | not =>
    unfold Frame.toNode at h
    split at h <;> simp_all
    obtain rfl := h
    exact .not hs.clause

/-! ## Lemmas: a run that ends well derives its tokens -/

section

variable {root : List Node} {stack : List Frame} {us : List Token} {g : Group}

/-- Where the innermost group has its parenthesis, clauses come first and then the one that
closes it. -/
theorem Completes.within {f : Frame} (h : Completes root (f :: stack) us g)
    (hf : f.parenthesized = true) :
    ∃ ts ns n vs, us = ts ++ .rightParen :: vs ∧ Clauses (maxDepth - (stack.length + 1)) ts ns ∧
      Frame.toNode { f with children := f.children ++ ns } = .ok n ∧
        Completes (pushOnto root stack n).1 (pushOnto root stack n).2 vs g := by
  generalize hs : f :: stack = frames at h
  induction h generalizing f with
  | done => cases hs
  | @clause root frames ts us n g hc hr ih =>
    subst hs
    have hp : pushOnto root (f :: stack) n =
        (root, { f with children := f.children ++ [n] } :: stack) := by
      simp [pushOnto, hf]
    obtain ⟨vs, ns, m, ws, rfl, hns, hm, hws⟩ :=
      @ih { f with children := f.children ++ [n] } hf (by rw [hp])
    refine ⟨ts ++ vs, n :: ns, m, ws, by simp, .cons hc hns, ?_, by simpa [hp] using hws⟩
    simpa using hm
  | @close root f' frames n us g _ hn hr _ =>
    cases hs
    refine ⟨[], [], n, us, rfl, .nil, ?_, hr⟩
    simpa using hn

theorem Completes.group {opening : Opening} {offset : Nat}
    (h : Completes root (⟨opening, [], offset, true⟩ :: stack) us g)
    (hd : stack.length < maxDepth) :
    Completes root stack (opening.sign ++ .leftParen :: us) g := by
  obtain ⟨ts, ns, n, vs, rfl, hns, hn, hr⟩ := h.within rfl
  have hroom : maxDepth - stack.length = maxDepth - (stack.length + 1) + 1 := by omega
  have hc : Clause (maxDepth - stack.length)
      (opening.sign ++ .leftParen :: (ts ++ [.rightParen])) n := by
    rw [hroom]
    exact clause_of_toNode hn hns
  simpa using Completes.clause hc hr

theorem Completes.bareNot {offset : Nat}
    (h : Completes root (⟨.not, [], offset, false⟩ :: stack) us g)
    (hd : stack.length < maxDepth) (hne : us.head? ≠ some .leftParen) :
    Completes root stack (.not :: us) g := by
  cases h with
  | @clause _ _ ts us n _ hc hr =>
    have hroom : maxDepth - stack.length = maxDepth - (stack.length + 1) + 1 := by omega
    have hhead : ts.head? ≠ some .leftParen := by
      obtain ⟨t, ts, rfl⟩ := List.exists_cons_of_ne_nil hc.ne_nil
      simpa using hne
    have hn := Clause.bareNot hc hhead
    rw [List.length_cons, ← hroom] at hn
    exact .clause hn (by simpa [pushOnto] using hr)
  | close hf => cases hf

theorem HalfRead.eq_settled {p : Parser} {ts : List Token} (h : HalfRead p root stack ts)
    (hp : p.pending = .nothing) (ha : p.awaitingParen = false) :
    p = ⟨root, stack, .nothing, false⟩ ∧ ts = [] := by
  cases h <;> simp_all

end

section

variable {p q : Parser} {us : List Token} {g : Group}

theorem demands_of_operand {t : Token} {w : Operand} {offset : Nat}
    (h : p.operand w offset = .ok q) (ht : t.operand? = some w) (ha : p.awaitingParen = false)
    (hd : Demands q us g) : Demands p (t :: us) g := by
  intro root stack ts hr
  cases hr with
  | settled =>
    cases h
    exact hd _ _ _ (.leading ht)
  | leading => cases h
  | @operator _ _ attr o hattr ho =>
    obtain ⟨c, hc, h⟩ := bind_eq_ok_iff.1 h
    obtain ⟨hw, rfl⟩ := comparison_eq_ok_iff.1 hc
    cases h
    have hc := Comparison.scalar hattr ho (spells_iff.2 ⟨w, ht, rfl⟩) hw
    show Completes root stack ([.word attr, .op o, t] ++ us) g
    exact .clause (.comparison hc) (hd _ _ _ .settled)
  | @has _ _ s value hv hw =>
    cases w with
    | literal => cases h
    | word attr =>
      obtain ⟨_, hattr, h⟩ := bind_eq_ok_iff.1 h
      cases h
      rw [operand?_eq_word ht]
      have hc := Comparison.membership hv hw (checkAttribute_eq_ok_iff.1 hattr)
      show Completes root stack ([s, .op .has, .word attr] ++ us) g
      exact .clause (.comparison hc) (hd _ _ _ .settled)
  | combinator => cases ha

theorem demands_of_operator {o : Operator} {offset : Nat} (h : p.operator o offset = .ok q)
    (ho : o ≠ .has) (hd : Demands q us g) : Demands p (.op o :: us) g := by
  intro root stack ts hr
  cases hr with
  | @leading _ _ t w _ hw =>
    cases w with
    | literal => cases h
    | word attr =>
      obtain ⟨_, hattr, h⟩ := bind_eq_ok_iff.1 h
      cases h
      rw [operand?_eq_word hw]
      exact hd _ _ _ (.operator (checkAttribute_eq_ok_iff.1 hattr) ho)
  | _ => cases h

theorem demands_of_membership {offset : Nat} (h : p.membership offset = .ok q)
    (hd : Demands q us g) : Demands p (.op .has :: us) g := by
  intro root stack ts hr
  cases hr with
  | @leading _ _ t w _ hw =>
    unfold membership at h
    by_cases hp : w.toLiteral.isWildcard = true
    · simp [hp] at h
    · simp [hp] at h
      subst h
      exact hd _ _ _ (.has (spells_iff.2 ⟨w, hw, rfl⟩) (Bool.not_eq_true _ ▸ hp))
  | _ => cases h

theorem demands_of_leftParen {offset : Nat} (hp : p.ensureIdle offset = .ok ())
    (h : p.openGroup .bare offset true = .ok q) (ha : p.awaitingParen = false)
    (hd : Demands q us g) : Demands p (.leftParen :: us) g := by
  intro root stack ts hr
  obtain ⟨rfl, rfl⟩ := hr.eq_settled (ensureIdle_eq_ok_iff.1 hp) ha
  obtain ⟨hroom, rfl⟩ := openGroup_eq_ok_iff.1 h
  exact (hd _ _ _ .settled).group hroom

theorem demands_of_close {offset : Nat} (h : p.close offset = .ok q) (ha : p.awaitingParen = false)
    (hd : Demands q us g) : Demands p (.rightParen :: us) g := by
  intro root stack ts hr
  obtain ⟨_, hp, h⟩ := bind_eq_ok_iff.1 h
  obtain ⟨rfl, rfl⟩ := hr.eq_settled (ensureIdle_eq_ok_iff.1 hp) ha
  cases stack with
  | nil => cases h
  | cons f stack =>
    by_cases hf : f.parenthesized = true
    · simp only [hf, if_true] at h
      obtain ⟨n, hn, h⟩ := bind_eq_ok_iff.1 h
      cases h
      exact .close hf hn (hd _ _ _ .settled)
    · simp [hf] at h

theorem demands_of_combinator {opening : Opening} {offset : Nat}
    (h : p.combinator opening offset = .ok q) (ha : p.awaitingParen = false)
    (hd : Demands q us g) : Demands p (opening.sign ++ us) g := by
  intro root stack ts hr
  obtain ⟨_, hp, h⟩ := bind_eq_ok_iff.1 h
  obtain ⟨rfl, rfl⟩ := hr.eq_settled (ensureIdle_eq_ok_iff.1 hp) ha
  obtain ⟨p', ho, h⟩ := bind_eq_ok_iff.1 h
  obtain ⟨hroom, rfl⟩ := openGroup_eq_ok_iff.1 ho
  cases h
  exact hd _ _ _ (.combinator hroom)

theorem demands_of_take {l : Lexeme} (h : p.take l = .ok q) (ha : p.awaitingParen = false)
    (hd : Demands q us g) : Demands p (l.token :: us) g := by
  obtain ⟨t, offset⟩ := l
  cases t with
  | word s => exact demands_of_operand h rfl ha hd
  | integer n => exact demands_of_operand h rfl ha hd
  | quoted s => exact demands_of_operand h rfl ha hd
  | op o =>
    by_cases ho : o = .has
    · subst ho
      exact demands_of_membership h hd
    · rw [take_op rfl ho] at h
      exact demands_of_operator h ho hd
  | leftParen =>
    obtain ⟨_, hp, h⟩ := bind_eq_ok_iff.1 h
    exact demands_of_leftParen hp h ha hd
  | rightParen => exact demands_of_close h ha hd
  | and => exact demands_of_combinator h ha hd
  | or => exact demands_of_combinator h ha hd
  | not => exact demands_of_combinator h ha hd

theorem demands_of_feed {l : Lexeme} (h : p.feed l = .ok q) (hd : Demands q us g) :
    Demands p (l.token :: us) g := by
  cases ha : p.awaitingParen with
  | false =>
    simp only [feed, ha] at h
    exact demands_of_take h ha hd
  | true =>
    intro root stack ts hr
    cases hr with
    | @combinator _ _ opening offset hroom =>
      simp only [feed, if_true] at h
      by_cases hl : l.token = .leftParen
      · simp only [hl, if_true] at h
        cases h
        rw [hl]
        exact (hd _ _ _ .settled).group hroom
      · by_cases ho : opening = .not
        · subst ho
          simp only [hl, if_false, if_true] at h
          have := demands_of_take h rfl hd _ _ _ .settled
          exact this.bareNot hroom (by simpa using hl)
        · simp [hl, ho] at h
    | _ => cases ha

theorem demands_of_finish {stop : Nat} (h : p.finish stop = .ok g) : Demands p [] g := by
  intro root stack ts hr
  obtain ⟨_, hp, h⟩ := bind_eq_ok_iff.1 h
  cases hr with
  | settled =>
    cases stack with
    | nil =>
      cases h
      exact .done
    | cons f stack =>
      cases hf : f.parenthesized <;> cases ho : f.opening <;> simp [hf, ho] at h
  | @combinator _ _ opening offset _ =>
    cases opening <;> cases h
  | _ => cases hp

theorem demands_of_run {ls : List Lexeme} (h : ls.foldlM feed p = .ok q) (hd : Demands q us g) :
    Demands p (ls.map Lexeme.token ++ us) g := by
  induction ls generalizing p with
  | nil =>
    cases h
    exact hd
  | cons l ls ih =>
    rw [List.foldlM_cons] at h
    obtain ⟨p', hl, h⟩ := bind_eq_ok_iff.1 h
    exact demands_of_feed hl (ih h)

end

theorem Completes.clauses {root : List Node} {us : List Token} {g : Group}
    (h : Completes root [] us g) : ∃ ns, Clauses maxDepth us ns ∧ g = ⟨.and, root ++ ns⟩ := by
  generalize hs : ([] : List Frame) = stack at h
  induction h with
  | done => exact ⟨[], .nil, by rw [List.append_nil]⟩
  | @clause root stack ts us n g hc _ ih =>
    subst hs
    obtain ⟨ns, hns, rfl⟩ := ih rfl
    exact ⟨n :: ns, .cons hc hns, by simp [pushOnto]⟩
  | close => cases hs

end Parser

/-! ## Top theorems -/

/-- A query whose tokens derive is read as its clauses. -/
theorem parse_of_clauses {lexemes : List Lexeme} {ns : List Node}
    (h : Clauses maxDepth (lexemes.map Lexeme.token) ns) (stop : Nat) :
    Scan.parse ⟨lexemes, none⟩ stop = .ok ⟨.and, ns⟩ := by
  have hrun := Parser.run_root h [] rfl
  show lexemes.foldlM Parser.feed (Parser.settled [] []) >>= _ = _
  rw [hrun]
  rfl

theorem clauses_of_parse {lexemes : List Lexeme} {stop : Nat} {g : Group}
    (h : Scan.parse ⟨lexemes, none⟩ stop = .ok g) :
    ∃ ns, Clauses maxDepth (lexemes.map Lexeme.token) ns ∧ g = ⟨.and, ns⟩ := by
  obtain ⟨p, hrun, hstop⟩ := bind_eq_ok_iff.1 h
  have hd := Parser.demands_of_run hrun (Parser.demands_of_finish hstop)
  have hc := hd [] [] [] .settled
  rw [List.nil_append, List.append_nil] at hc
  exact hc.clauses

/-- **The parser decides the grammar.**  Fed with any lexemes it ends well just where their tokens
derive without too many groups open at once, and then the root holds the trees that derive. -/
theorem parse_eq_ok_iff (lexemes : List Lexeme) (stop : Nat) (g : Group) :
    Scan.parse ⟨lexemes, none⟩ stop = .ok g ↔
      g.kind = .and ∧ Clauses maxDepth (lexemes.map Lexeme.token) g.children := by
  constructor
  · intro h
    obtain ⟨ns, hns, rfl⟩ := clauses_of_parse h
    exact ⟨rfl, hns⟩
  · rintro ⟨hk, hns⟩
    obtain ⟨kind, ns⟩ := g
    cases hk
    exact parse_of_clauses hns stop

end PictureSearch.Query

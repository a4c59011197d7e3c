import PictureSearch.Proofs.Query.Pending

/-!
# Open groups

What holds of the open groups, and of what is pending, in every state that the parser reaches.  A
group without parentheses holds nothing yet: either its sign was the last token, or it is a negation
that the next clause ends.

    ls.foldlM feed initial = .ok p → p.Orderly

So a clause that ends negations takes nothing from them, a closing parenthesis never meets a sign
that still wants its own, and what is said of the innermost group, at a closing parenthesis or at
the end of the text, is true of it.
                                                                             (orderly_of_run)

`Coherent` is what every step keeps (`Feeds.coherent`); the rest is read off it.
-/

namespace PictureSearch.Query

/-! ## Statements -/

/-- What is found wrong with the innermost group when a parenthesis closes it. -/
inductive Frame.FaultyInside : Frame → SyntaxError → Prop
  | noOperand {f : Frame} : f.opening = .not → f.children = [] →
      FaultyInside f ⟨.negationWithoutOperand, f.offset⟩
  | severalOperands {f : Frame} : f.opening = .not → f.parenthesized = true →
      2 ≤ f.children.length → FaultyInside f ⟨.negationOfSeveral, f.offset⟩

/-- What is wrong with the innermost group when the text ends in it. -/
inductive Frame.LeftOpen : Frame → SyntaxError → Prop
  | unclosed {f : Frame} : f.parenthesized = true → LeftOpen f ⟨.unclosedParen, f.offset⟩
  | noOperand {f : Frame} : f.parenthesized = false → f.opening = .not → f.children = [] →
      LeftOpen f ⟨.negationWithoutOperand, f.offset⟩
  | noParenthesis {f : Frame} : f.parenthesized = false → f.opening = .and ∨ f.opening = .or →
      f.children = [] → LeftOpen f ⟨.parenWanted f.opening, f.offset⟩

namespace Parser

/-- The open groups and what is pending fit each other. -/
structure Orderly (p : Parser) : Prop where
  room : p.stack.length ≤ maxDepth
  childless : ∀ f ∈ p.stack, f.parenthesized = false → f.children = []
  /-- Only the sign met last may be one that wants its parenthesis; all others are negations. -/
  negation : ∀ i f, p.stack[i]? = some f → f.parenthesized = false → f.opening ≠ .not →
    i = 0 ∧ p.awaitingParen = true
  bare : ∀ f ∈ p.stack, f.opening = .bare → f.parenthesized = true
  awaiting : p.awaitingParen = true → p.pending = .nothing ∧
    ∃ f rest, p.stack = f :: rest ∧ f.parenthesized = false ∧ f.children = []
  operator : ∀ attr o, p.pending = .operator attr o → '%' ∉ attr.toList
  has : ∀ value, p.pending = .has value → value.isWildcard = false

/-- A push that keeps whatever the negations ended by it hold, before the clause itself. -/
def pushKeeping (root : List Node) : List Frame → Node → List Node × List Frame
  | [], node => (root ++ [node], [])
  | f :: rest, node =>
    if f.opening = .not ∧ f.parenthesized = false then
      pushKeeping root rest (.group .not (f.children ++ [node]))
    else (root, { f with children := f.children ++ [node] } :: rest)

/-- What a closing parenthesis at byte `i` meets. -/
inductive Closing (p : Parser) (i : Nat) : Prop
  /-- The sign before it wants a parenthesis, so that nothing is closed. -/
  | early {f : Frame} {rest : List Frame} : p.stack = f :: rest → f.parenthesized = false →
      f.opening = .and ∨ f.opening = .or →
        p.feed ⟨.rightParen, i⟩ = .error ⟨.parenWanted f.opening, i⟩ → Closing p i
  /-- No sign wants a parenthesis, and what is wrong is said of the innermost group, if there is
  one. -/
  | closed : (∀ f ∈ p.stack, f.parenthesized = false → f.opening = .not) →
      p.feed ⟨.rightParen, i⟩ = close { p with awaitingParen := false } i →
        (∀ e, close { p with awaitingParen := false } i = .error e ↔
          p.ensureIdle i = .error e ∨ p.pending = .nothing ∧
            (p.stack = [] ∧ e = ⟨.unmatchedParen, i⟩ ∨
              ∃ f ∈ p.stack.head?, f.FaultyInside e)) → Closing p i

end Parser

/-! ## Lemmas: frames -/

/-- Between two clauses of the group: it has its parenthesis, or is ended by the next clause. -/
def Frame.Settled (f : Frame) : Prop :=
  f.parenthesized = true ∨ f.opening = .not ∧ f.children = []

/-- The sign of the group was met, and nothing behind it. -/
structure Frame.Signed (f : Frame) : Prop where
  parenthesized : f.parenthesized = false
  opening : f.opening ≠ .bare
  children : f.children = []

section

variable {f : Frame}

theorem Frame.Settled.of_not_parenthesized (h : f.Settled) (hf : f.parenthesized = false) :
    f.opening = .not ∧ f.children = [] := by
  rcases h with hp | hnot
  · rw [hf] at hp
    cases hp
  · exact hnot

theorem Frame.Signed.settled (h : f.Signed) (hf : f.opening = .not) : f.Settled :=
  .inr ⟨hf, h.children⟩

theorem Frame.Signed.and_or_or (h : f.Signed) (hf : f.opening ≠ .not) :
    f.opening = .and ∨ f.opening = .or := by
  have hbare := h.opening
  cases ho : f.opening with
  | bare => exact absurd ho hbare
  | and => exact .inl rfl
  | or => exact .inr rfl
  | not => exact absurd ho hf

theorem Frame.toNode_eq_error_iff {e : SyntaxError} (hf : f.parenthesized = true) :
    f.toNode = .error e ↔ f.FaultyInside e := by
  obtain ⟨opening, children, offset, _⟩ := f
  obtain rfl := hf
  constructor
  · intro h
    unfold toNode at h
    split at h <;> cases h
    · exact .noOperand ‹_› ‹_›
    · next hnot hone hnone =>
      refine .severalOperands ‹_› rfl ?_
      match children, hone, hnone with
      | [], _, hnone => exact absurd rfl hnone
      | [n], hone, _ => exact absurd rfl (hone n)
      | _ :: _ :: _, _, _ => simp
  · intro h
    cases h with
    | noOperand ho hc =>
      obtain rfl := ho
      obtain rfl := hc
      rfl
    | severalOperands ho _ hlen =>
      obtain rfl := ho
      match children, hlen with
      | _ :: _ :: _, _ => rfl

theorem Frame.faultyInside_iff_of_children {e : SyntaxError} (ho : f.opening = .not)
    (hc : f.children = []) : f.FaultyInside e ↔ e = ⟨.negationWithoutOperand, f.offset⟩ := by
  constructor
  · intro h
    cases h with
    | noOperand => rfl
    | severalOperands _ _ hlen =>
      rw [hc] at hlen
      cases hlen
  · rintro rfl
    exact .noOperand ho hc

theorem Frame.leftOpen_iff_of_parenthesized {e : SyntaxError} (hf : f.parenthesized = true) :
    f.LeftOpen e ↔ e = ⟨.unclosedParen, f.offset⟩ := by
  constructor
  · intro h
    cases h with
    | unclosed => rfl
    | noOperand hno | noParenthesis hno =>
      rw [hf] at hno
      cases hno
  · rintro rfl
    exact .unclosed hf

/-- Of a group that has its sign alone, the sign says what is missing. -/
theorem Frame.Signed.leftOpen_iff {e : SyntaxError} (h : f.Signed) :
    f.LeftOpen e ↔ e = ⟨if f.opening = .not then .negationWithoutOperand
      else .parenWanted f.opening, f.offset⟩ := by
  constructor
  · intro hopen
    cases hopen with
    | unclosed hp =>
      rw [h.parenthesized] at hp
      cases hp
    | noOperand _ ho => rw [if_pos ho]
    | noParenthesis _ ho =>
      have hne : f.opening ≠ .not := by rcases ho with ho | ho <;> rw [ho] <;> nofun
      rw [if_neg hne]
  · rintro rfl
    split
    · next ho => exact .noOperand h.parenthesized ho h.children
    · next ho => exact .noParenthesis h.parenthesized (h.and_or_or ho) h.children

end

/-- What has been checked of a comparison that is half written. -/
def Pending.Checked : Pending → Prop
  | .nothing | .leading _ _ => True
  | .operator attr _ => '%' ∉ attr.toList
  | .has value => value.isWildcard = false

theorem Token.ne_bare_of_combinator? {t : Token} {opening : Opening}
    (h : t.combinator? = some opening) : opening ≠ .bare := by
  cases t <;> cases h <;> nofun

namespace Parser

/-! ## Lemmas: pushing a clause -/

section

variable {root : List Node} {stack : List Frame}

theorem settled_pushOnto (hs : ∀ f ∈ stack, f.Settled) (n : Node) :
    ∀ f ∈ (pushOnto root stack n).2, f.Settled := by
  induction stack generalizing n with
  | nil => exact fun _ h => nomatch h
  | cons f rest ih =>
    obtain ⟨hf, hrest⟩ := List.forall_mem_cons.1 hs
    unfold pushOnto
    split
    · exact ih hrest _
    · next hnot =>
      -- a group that a clause does not end has its parenthesis
      have hparen : f.parenthesized = true := by
        rw [← Bool.not_eq_false]
        exact fun hp => hnot ⟨(hf.of_not_parenthesized hp).1, hp⟩
      exact List.forall_mem_cons.2 ⟨.inl hparen, hrest⟩

theorem length_pushOnto_le (root : List Node) (stack : List Frame) (n : Node) :
    (pushOnto root stack n).2.length ≤ stack.length := by
  induction stack generalizing n with
  | nil => exact Nat.le_refl _
  | cons f rest ih =>
    unfold pushOnto
    split
    · exact Nat.le_succ_of_le (ih _)
    · exact Nat.le_refl _

theorem pushOnto_eq_pushKeeping
    (hs : ∀ f ∈ stack, f.parenthesized = false → f.children = []) (root : List Node) (n : Node) :
    pushOnto root stack n = pushKeeping root stack n := by
  induction stack generalizing n with
  | nil => rfl
  | cons f rest ih =>
    obtain ⟨hf, hrest⟩ := List.forall_mem_cons.1 hs
    unfold pushOnto pushKeeping
    split
    · next hnot =>
      rw [ih hrest, hf hnot.2, List.nil_append]
    · rfl

end

/-! ## Lemmas: what every step keeps -/

/-- Either all open groups are between two clauses, or the last token was the sign of the innermost
one. -/
inductive Coherent : Parser → Prop
  | settled {root : List Node} {stack : List Frame} {pending : Pending} :
      stack.length ≤ maxDepth → (∀ f ∈ stack, f.Settled) → pending.Checked →
        Coherent ⟨root, stack, pending, false⟩
  | signed {root : List Node} {f : Frame} {stack : List Frame} :
      stack.length < maxDepth → f.Signed → (∀ g ∈ stack, g.Settled) →
        Coherent ⟨root, f :: stack, .nothing, true⟩

section

variable {p q : Parser} {l : Lexeme}

theorem coherent_initial : initial.Coherent := .settled (Nat.zero_le _) nofun trivial

theorem Coherent.steady (h : p.Coherent) : p.Steady := by
  cases h with
  | settled => exact steady_of_not_awaiting rfl
  | signed => exact fun _ => ⟨rfl, List.cons_ne_nil _ _⟩

theorem coherent_push {root : List Node} {stack : List Frame} (hroom : stack.length ≤ maxDepth)
    (hs : ∀ f ∈ stack, f.Settled) (n : Node) :
    (push ⟨root, stack, .nothing, false⟩ n).Coherent :=
  .settled (Nat.le_trans (length_pushOnto_le root stack n) hroom) (settled_pushOnto hs n) trivial

theorem Takes.coherent (h : p.Takes l q) (hroom : p.stack.length ≤ maxDepth)
    (hs : ∀ f ∈ p.stack, f.Settled) (ha : p.awaitingParen = false) : q.Coherent := by
  cases h with
  | leading =>
    obtain rfl := ha
    exact .settled hroom hs trivial
  | operator _ _ hattr =>
    obtain rfl := ha
    exact .settled hroom hs (checkAttribute_eq_ok_iff.1 hattr)
  | value =>
    obtain rfl := ha
    exact coherent_push hroom hs _
  | has _ hw =>
    obtain rfl := ha
    exact .settled hroom hs hw
  | member =>
    obtain rfl := ha
    exact coherent_push hroom hs _
  | leftParen _ hlt =>
    obtain rfl := ha
    exact .settled hlt (List.forall_mem_cons.2 ⟨.inl rfl, hs⟩) trivial
  | combinator ht hlt => exact .signed hlt ⟨rfl, Token.ne_bare_of_combinator? ht, rfl⟩ hs
  | rightParen =>
    obtain rfl := ha
    exact coherent_push (Nat.le_of_succ_le hroom) (List.forall_mem_cons.1 hs).2 _

theorem Feeds.coherent (h : p.Feeds l q) (hp : p.Coherent) : q.Coherent := by
  cases h with
  | take ha h =>
    cases hp with
    | settled hroom hs _ => exact h.coherent hroom hs rfl
    | signed => cases ha
  | parenthesis =>
    cases hp with
    | signed hlt _ hs => exact .settled hlt (List.forall_mem_cons.2 ⟨.inl rfl, hs⟩) trivial
  | bare _ hnot h =>
    cases hp with
    | signed hlt hf hs => exact h.coherent hlt (List.forall_mem_cons.2 ⟨hf.settled hnot, hs⟩) rfl

theorem coherent_of_run {ls : List Lexeme} (hp : p.Coherent) (h : ls.foldlM feed p = .ok q) :
    q.Coherent := by
  induction ls generalizing p with
  | nil =>
    cases h
    exact hp
  | cons l ls ih =>
    rw [List.foldlM_cons] at h
    obtain ⟨p', hl, h⟩ := bind_eq_ok_iff.1 h
    exact ih (((feed_eq_ok_iff hp.steady).1 hl).coherent hp) h

end

/-! ## Lemmas: what follows -/

section

variable {p : Parser} {f : Frame} {i : Nat} {e : SyntaxError}

/-- A group without parentheses holds nothing, and is the innermost one or a negation. -/
theorem Coherent.signed_of_getElem? (h : p.Coherent) (hi : p.stack[i]? = some f)
    (hf : f.parenthesized = false) :
    f.Signed ∧ (f.opening = .not ∨ i = 0 ∧ p.awaitingParen = true) := by
  have settled : f.Settled → f.Signed ∧ f.opening = .not := by
    intro hs
    obtain ⟨hnot, hc⟩ := hs.of_not_parenthesized hf
    exact ⟨⟨hf, by rw [hnot]; nofun, hc⟩, hnot⟩
  cases h with
  | settled _ hs _ =>
    obtain ⟨hsigned, hnot⟩ := settled (hs f (List.mem_of_getElem? hi))
    exact ⟨hsigned, .inl hnot⟩
  | signed _ hsigned hs =>
    cases i with
    | zero =>
      cases hi
      exact ⟨hsigned, .inr ⟨rfl, rfl⟩⟩
    | succ i =>
      obtain ⟨hsigned, hnot⟩ := settled (hs f (List.mem_of_getElem? hi))
      exact ⟨hsigned, .inl hnot⟩

theorem Coherent.signed_of_mem (h : p.Coherent) (hmem : f ∈ p.stack)
    (hf : f.parenthesized = false) : f.Signed := by
  obtain ⟨i, hi⟩ := List.mem_iff_getElem?.1 hmem
  exact (h.signed_of_getElem? hi hf).1

theorem Coherent.orderly (h : p.Coherent) : p.Orderly where
  room := by
    cases h with
    | settled hroom => exact hroom
    | signed hlt => exact hlt
  childless f hmem hf := (h.signed_of_mem hmem hf).children
  negation i f hi hf hnot := (h.signed_of_getElem? hi hf).2.resolve_left hnot
  bare f hmem hbare := by
    rw [← Bool.not_eq_false]
    exact fun hf => (h.signed_of_mem hmem hf).opening hbare
  awaiting ha := by
    cases h with
    | settled => cases ha
    | signed _ hf _ => exact ⟨rfl, _, _, rfl, hf.parenthesized, hf.children⟩
  operator attr o hp := by
    cases h with
    | settled _ _ hchecked =>
      obtain rfl := hp
      exact hchecked
    | signed => cases hp
  has value hp := by
    cases h with
    | settled _ _ hchecked =>
      obtain rfl := hp
      exact hchecked
    | signed => cases hp

theorem ensureIdle_bind_eq_error_iff {α : Type} {x : Except SyntaxError α} :
    (p.ensureIdle i >>= fun _ => x) = .error e ↔
      p.ensureIdle i = .error e ∨ p.pending = .nothing ∧ x = .error e := by
  rw [bind_eq_error_iff]
  refine or_congr_right ⟨?_, ?_⟩
  · rintro ⟨_, hidle, hx⟩
    exact ⟨ensureIdle_eq_ok_iff.1 hidle, hx⟩
  · rintro ⟨hidle, hx⟩
    exact ⟨(), ensureIdle_eq_ok_iff.2 hidle, hx⟩

theorem close_eq_error_iff {root : List Node} {stack : List Frame} {pending : Pending}
    (hs : ∀ f ∈ stack, f.Settled) :
    close ⟨root, stack, pending, false⟩ i = .error e ↔
      ensureIdle ⟨root, stack, pending, false⟩ i = .error e ∨ pending = .nothing ∧
        (stack = [] ∧ e = ⟨.unmatchedParen, i⟩ ∨ ∃ f ∈ stack.head?, f.FaultyInside e) := by
  refine ensureIdle_bind_eq_error_iff.trans (or_congr_right (and_congr_right fun _ => ?_))
  cases stack with
  | nil => simp [eq_comm]
  | cons f rest =>
    have hf := (List.forall_mem_cons.1 hs).1
    by_cases hp : f.parenthesized = true
    · simp [hp, bind_eq_error_iff, Frame.toNode_eq_error_iff hp, pure, Except.pure]
    · obtain ⟨hnot, hc⟩ := hf.of_not_parenthesized (by simpa using hp)
      simp [hp, Frame.faultyInside_iff_of_children hnot hc, eq_comm]

theorem Coherent.closing (h : p.Coherent) (i : Nat) : p.Closing i := by
  cases h with
  | settled _ hs _ =>
    exact .closed (fun f hmem hf => ((hs f hmem).of_not_parenthesized hf).1) rfl
      fun e => close_eq_error_iff hs
  | @signed root f stack _ hf hs =>
    by_cases hnot : f.opening = .not
    · have hall : ∀ g ∈ f :: stack, g.Settled := List.forall_mem_cons.2 ⟨hf.settled hnot, hs⟩
      refine .closed (fun g hmem hg => ((hall g hmem).of_not_parenthesized hg).1) ?_
        fun e => close_eq_error_iff hall
      simp [feed, hnot, take]
    · refine .early rfl hf.parenthesized (hf.and_or_or hnot) ?_
      simp [feed, hnot]

theorem Coherent.finish_eq_error_iff (h : p.Coherent) {stop : Nat} :
    p.finish stop = .error e ↔ p.ensureIdle stop = .error e ∨
      p.pending = .nothing ∧ ∃ f ∈ p.stack.head?, f.LeftOpen e := by
  refine ensureIdle_bind_eq_error_iff.trans (or_congr_right (and_congr_right fun _ => ?_))
  obtain ⟨root, stack, pending, awaiting⟩ := p
  cases stack with
  | nil => simp [pure, Except.pure]
  | cons f rest =>
    by_cases hp : f.parenthesized = true
    · simp [hp, Frame.leftOpen_iff_of_parenthesized hp, eq_comm]
    · have hsigned := h.signed_of_mem List.mem_cons_self (by simpa using hp)
      by_cases hnot : f.opening = .not <;> simp [hp, hnot, hsigned.leftOpen_iff, eq_comm]

end

/-! ## Top theorem -/

/-- **Every state that the parser reaches is orderly.**  So a clause that ends negations takes
nothing from them, no group is closed that still wants its parenthesis, and what a closing
parenthesis or the end of the text says of the innermost group is true of it. -/
theorem orderly_of_run {ls : List Lexeme} {p : Parser} (h : ls.foldlM feed initial = .ok p) :
    p.Orderly ∧
      (∀ stack, stack <:+ p.stack → ∀ root n, pushOnto root stack n = pushKeeping root stack n) ∧
      (∀ i, p.Closing i) ∧
      ∀ stop e, p.finish stop = .error e ↔ p.ensureIdle stop = .error e ∨
        p.pending = .nothing ∧ ∃ f ∈ p.stack.head?, f.LeftOpen e := by
  have hp : p.Coherent := coherent_of_run coherent_initial h
  refine ⟨hp.orderly, ?_, hp.closing, fun stop e => hp.finish_eq_error_iff⟩
  intro stack hsuffix root n
  apply pushOnto_eq_pushKeeping
  exact fun f hf => hp.orderly.childless f (hsuffix.mem hf)

/-- Behind `|(x>2 !!`, where the text may not end. -/
def behindNegations : Parser where
  root := []
  stack := [⟨.not, [], 7, false⟩, ⟨.not, [], 6, false⟩,
    ⟨.or, [.compare ⟨"x", .gt, .integer 2⟩], 0, true⟩]
  pending := .nothing
  awaitingParen := true

/-- The clause that ends both negations goes behind the one before them. -/
theorem orderly_of_run_behindNegations :
    (scan "|(x>2 !!").lexemes.foldlM feed initial = .ok behindNegations ∧
      behindNegations.Orderly ∧ behindNegations.Closing 8 ∧
        (∀ n, pushOnto [] behindNegations.stack n = pushKeeping [] behindNegations.stack n) ∧
          behindNegations.finish 8 = .error ⟨.negationWithoutOperand, 7⟩ := by
  have hrun : (scan "|(x>2 !!").lexemes.foldlM feed initial = .ok behindNegations := by decide
  obtain ⟨horderly, hkeeps, hclosing, hfinish⟩ := orderly_of_run hrun
  refine ⟨hrun, horderly, hclosing 8, hkeeps _ List.suffix_rfl [], (hfinish 8 _).2 (.inr ?_)⟩
  exact ⟨rfl, _, rfl, .noOperand rfl rfl rfl⟩

end Parser

end PictureSearch.Query

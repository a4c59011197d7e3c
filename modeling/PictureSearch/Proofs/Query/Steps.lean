import PictureSearch.Proofs.Query.Taking

/-!
# What a step of the parser does

A lexeme is taken in one of eight ways, told apart by its token and by what is pending; behind a
combinator a parenthesis is taken in a way of its own, and only a negation goes without one.

    p.take l = .ok q ↔ p.Takes l q                                                (take_eq_ok_iff)
    p.Steady → (p.feed l = .ok q ↔ p.Feeds l q)                                   (feed_eq_ok_iff)

So what a step keeps is seen case by case, without opening the parser again.
-/

namespace PictureSearch.Query

/-- The combinator that the token is. -/
def Token.combinator? : Token → Option Opening
  | .and => some .and
  | .or => some .or
  | .not => some .not
  | _ => none

namespace Parser

/-! ## Statements -/

/-- What a lexeme that is no parenthesis of a combinator makes of a state. -/
inductive Takes : Parser → Lexeme → Parser → Prop
  | leading {root stack awaiting} {l : Lexeme} {w : Operand} :
      l.token.operand? = some w →
        Takes ⟨root, stack, .nothing, awaiting⟩ l ⟨root, stack, .leading w l.offset, awaiting⟩
  | operator {root stack awaiting first} {l : Lexeme} {attr : String} {o : Operator} :
      l.token = .op o → o ≠ .has → checkAttribute attr first = .ok () →
        Takes ⟨root, stack, .leading (.word attr) first, awaiting⟩ l
          ⟨root, stack, .operator attr o, awaiting⟩
  | value {root stack awaiting attr o} {l : Lexeme} {w : Operand} {c : Compare} :
      l.token.operand? = some w → comparison attr o w.toLiteral l.offset = .ok c →
        Takes ⟨root, stack, .operator attr o, awaiting⟩ l
          (push ⟨root, stack, .nothing, awaiting⟩ (.compare c))
  | has {root stack awaiting first} {l : Lexeme} {w : Operand} :
      l.token = .op .has → w.toLiteral.isWildcard = false →
        Takes ⟨root, stack, .leading w first, awaiting⟩ l ⟨root, stack, .has w.toLiteral, awaiting⟩
  | member {root stack awaiting value} {l : Lexeme} {attr : String} :
      l.token = .word attr → checkAttribute attr l.offset = .ok () →
        Takes ⟨root, stack, .has value, awaiting⟩ l
          (push ⟨root, stack, .nothing, awaiting⟩ (.compare ⟨attr, .has, value⟩))
  | leftParen {root stack awaiting} {l : Lexeme} :
      l.token = .leftParen → stack.length < maxDepth →
        Takes ⟨root, stack, .nothing, awaiting⟩ l
          ⟨root, ⟨.bare, [], l.offset, true⟩ :: stack, .nothing, awaiting⟩
  | combinator {root stack awaiting} {l : Lexeme} {opening : Opening} :
      l.token.combinator? = some opening → stack.length < maxDepth →
        Takes ⟨root, stack, .nothing, awaiting⟩ l
          ⟨root, ⟨opening, [], l.offset, false⟩ :: stack, .nothing, true⟩
  | rightParen {root stack awaiting} {f : Frame} {l : Lexeme} {n : Node} :
      l.token = .rightParen → f.parenthesized = true → f.toNode = .ok n →
        Takes ⟨root, f :: stack, .nothing, awaiting⟩ l (push ⟨root, stack, .nothing, awaiting⟩ n)

/-- The group of a combinator is open as long as its parenthesis may follow, and then nothing is
half written. -/
def Steady (p : Parser) : Prop := p.awaitingParen = true → p.pending = .nothing ∧ p.stack ≠ []

/-- What a lexeme makes of a steady state. -/
inductive Feeds : Parser → Lexeme → Parser → Prop
  | take {p q : Parser} {l : Lexeme} : p.awaitingParen = false → p.Takes l q → Feeds p l q
  | parenthesis {root stack} {f : Frame} {l : Lexeme} :
      l.token = .leftParen →
        Feeds ⟨root, f :: stack, .nothing, true⟩ l
          ⟨root, { f with parenthesized := true } :: stack, .nothing, false⟩
  | bare {root stack} {f : Frame} {l : Lexeme} {q : Parser} :
      l.token ≠ .leftParen → f.opening = .not → Takes ⟨root, f :: stack, .nothing, false⟩ l q →
        Feeds ⟨root, f :: stack, .nothing, true⟩ l q

/-! ## Lemmas: taking -/

section

variable {p q : Parser} {l : Lexeme}

theorem takes_of_operand {w : Operand} (ht : l.token.operand? = some w)
    (h : p.operand w l.offset = .ok q) : p.Takes l q := by
  obtain ⟨root, stack, pending, awaiting⟩ := p
  cases pending with
  | nothing =>
    cases h
    exact .leading ht
  | leading => cases h
  | operator attr o =>
    obtain ⟨c, hc, h⟩ := bind_eq_ok_iff.1 h
    cases h
    exact .value ht hc
  | has value =>
    cases w with
    | literal => cases h
    | word attr =>
      obtain ⟨_, hattr, h⟩ := bind_eq_ok_iff.1 h
      cases h
      exact .member (operand?_eq_word ht) hattr

theorem takes_of_operator {o : Operator} (ht : l.token = .op o) (ho : o ≠ .has)
    (h : p.operator o l.offset = .ok q) : p.Takes l q := by
  obtain ⟨root, stack, pending, awaiting⟩ := p
  cases pending with
  | leading w first =>
    cases w with
    | literal => cases h
    | word attr =>
      obtain ⟨_, hattr, h⟩ := bind_eq_ok_iff.1 h
      cases h
      exact .operator ht ho hattr
  | _ => cases h

theorem takes_of_membership (ht : l.token = .op .has) (h : p.membership l.offset = .ok q) :
    p.Takes l q := by
  obtain ⟨root, stack, pending, awaiting⟩ := p
  cases pending with
  | leading w first =>
    unfold membership at h
    dsimp only at h
    split at h
    · cases h
    · next hw =>
      cases h
      exact .has ht (Bool.not_eq_true _ ▸ hw)
  | _ => cases h

theorem takes_of_combinator {opening : Opening} (ht : l.token.combinator? = some opening)
    (h : p.combinator opening l.offset = .ok q) : p.Takes l q := by
  obtain ⟨root, stack, pending, awaiting⟩ := p
  obtain ⟨_, hp, h⟩ := bind_eq_ok_iff.1 h
  obtain ⟨p', ho, h⟩ := bind_eq_ok_iff.1 h
  obtain ⟨hroom, rfl⟩ := openGroup_eq_ok_iff.1 ho
  obtain rfl : pending = .nothing := ensureIdle_eq_ok_iff.1 hp
  cases h
  exact .combinator ht hroom

theorem takes_of_close (ht : l.token = .rightParen) (h : p.close l.offset = .ok q) :
    p.Takes l q := by
  obtain ⟨root, stack, pending, awaiting⟩ := p
  obtain ⟨_, hp, h⟩ := bind_eq_ok_iff.1 h
  obtain rfl : pending = .nothing := ensureIdle_eq_ok_iff.1 hp
  cases stack with
  | nil => cases h
  | cons f stack =>
    dsimp only at h
    split at h
    · next hf =>
      obtain ⟨n, hn, h⟩ := bind_eq_ok_iff.1 h
      cases h
      exact .rightParen ht hf hn
    · cases h

theorem takes_of_take (h : p.take l = .ok q) : p.Takes l q := by
  obtain ⟨t, offset⟩ := l
  cases t with
  | word => exact takes_of_operand rfl h
  | integer => exact takes_of_operand rfl h
  | quoted => exact takes_of_operand rfl h
  | op o =>
    by_cases ho : o = .has
    · subst ho
      exact takes_of_membership rfl h
    · rw [take_op rfl ho] at h
      exact takes_of_operator rfl ho h
  | leftParen =>
    obtain ⟨root, stack, pending, awaiting⟩ := p
    obtain ⟨_, hp, h⟩ := bind_eq_ok_iff.1 h
    obtain ⟨hroom, rfl⟩ := openGroup_eq_ok_iff.1 h
    obtain rfl : pending = .nothing := ensureIdle_eq_ok_iff.1 hp
    exact .leftParen rfl hroom
  | rightParen => exact takes_of_close rfl h
  | and => exact takes_of_combinator rfl h
  | or => exact takes_of_combinator rfl h
  | not => exact takes_of_combinator rfl h

theorem take_combinator {opening : Opening} (ht : l.token.combinator? = some opening) :
    p.take l = p.combinator opening l.offset := by
  obtain ⟨t, offset⟩ := l
  cases t <;> cases ht <;> rfl

theorem take_of_takes (h : p.Takes l q) : p.take l = .ok q := by
  cases h with
  | leading ht =>
    rw [take_operand ht]
    rfl
  | operator ht ho hattr =>
    rw [take_op ht ho]
    exact bind_eq_ok_iff.2 ⟨_, hattr, rfl⟩
  | value ht hc =>
    rw [take_operand ht]
    exact bind_eq_ok_iff.2 ⟨_, hc, rfl⟩
  | @has _ _ _ _ l w ht hw =>
    obtain ⟨_, offset⟩ := l
    obtain rfl := ht
    show (if w.toLiteral.isWildcard then _ else _) = _
    rw [hw]
    rfl
  | @member _ _ _ _ l attr ht hattr =>
    have hoperand : l.token.operand? = some (.word attr) := by rw [ht]; rfl
    rw [take_operand hoperand]
    exact bind_eq_ok_iff.2 ⟨_, hattr, rfl⟩
  | @leftParen _ _ _ l ht hroom =>
    obtain ⟨_, offset⟩ := l
    obtain rfl := ht
    exact openGroup_eq_ok_iff.2 ⟨hroom, rfl⟩
  | combinator ht hroom =>
    rw [take_combinator ht]
    exact bind_eq_ok_iff.2 ⟨_, rfl, bind_eq_ok_iff.2 ⟨_, openGroup_eq_ok_iff.2 ⟨hroom, rfl⟩, rfl⟩⟩
  | @rightParen _ _ _ f l n ht hf hn =>
    obtain ⟨_, offset⟩ := l
    obtain rfl := ht
    refine bind_eq_ok_iff.2 ⟨(), rfl, ?_⟩
    dsimp only
    rw [if_pos hf]
    exact bind_eq_ok_iff.2 ⟨n, hn, rfl⟩

theorem take_eq_ok_iff : p.take l = .ok q ↔ p.Takes l q := ⟨takes_of_take, take_of_takes⟩

/-! ## Lemmas: feeding -/

theorem steady_of_not_awaiting (h : p.awaitingParen = false) : p.Steady := by
  intro ht
  rw [h] at ht
  cases ht

theorem steady_initial : initial.Steady := steady_of_not_awaiting rfl

theorem feed_eq_ok_iff (hs : p.Steady) : p.feed l = .ok q ↔ p.Feeds l q := by
  obtain ⟨root, stack, pending, awaiting⟩ := p
  cases awaiting with
  | false =>
    constructor
    · exact fun h => .take rfl (takes_of_take h)
    · intro h
      cases h with
      | take _ h => exact take_of_takes h
  | true =>
    obtain ⟨rfl, hne⟩ := hs rfl
    obtain ⟨f, rest, rfl⟩ := List.exists_cons_of_ne_nil hne
    unfold feed
    dsimp only
    rw [if_pos rfl]
    by_cases hl : l.token = .leftParen
    · rw [if_pos hl]
      constructor
      · rintro ⟨⟩
        exact .parenthesis hl
      · intro h
        cases h with
        | take ha => cases ha
        | parenthesis => rfl
        | bare hother => exact absurd hl hother
    · rw [if_neg hl]
      by_cases hf : f.opening = .not
      · rw [if_pos hf]
        constructor
        · exact fun h => .bare hl hf (takes_of_take h)
        · intro h
          cases h with
          | take ha => cases ha
          | parenthesis hparen => exact absurd hparen hl
          | bare _ _ h => exact take_of_takes h
      · rw [if_neg hf]
        constructor
        · intro h
          cases h
        · intro h
          cases h with
          | take ha => cases ha
          | parenthesis hparen => exact absurd hparen hl
          | bare _ hnot => exact absurd hnot hf

end

end Parser

end PictureSearch.Query

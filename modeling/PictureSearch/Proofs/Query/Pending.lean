import PictureSearch.Proofs.Query.Steps

/-!
# What is pending

What is half written of a comparison is settled by the last tokens alone, whatever groups are open;
and behind a combinator nothing is half written and its group is open (`Parser.Steady`).

    p.Steady → ls.foldlM feed p = .ok q →
      q.Steady ∧ q.pending = ls.foldl Pending.next p.pending                        (pending_of_run)
-/

namespace PictureSearch.Query

/-- What is pending behind the lexeme, if it is taken without an error. -/
def Pending.next : Pending → Lexeme → Pending
  | .nothing, l =>
    match l.token.operand? with
    | some w => .leading w l.offset
    | none => .nothing
  | .leading w _, l =>
    match w, l.token with
    | w, .op .has => .has w.toLiteral
    | .word attr, .op o => .operator attr o
    | _, _ => .nothing
  | .operator _ _, _ => .nothing
  | .has _, _ => .nothing

/-! ## Lemmas: tokens -/

theorem Pending.next_operand {l : Lexeme} {w : Operand} (h : l.token.operand? = some w) :
    Pending.nothing.next l = .leading w l.offset := by
  simp [next, h]

theorem Pending.next_nothing {l : Lexeme} (h : l.token.operand? = none) :
    Pending.nothing.next l = .nothing := by
  simp [next, h]

theorem Pending.next_has {l : Lexeme} (h : l.token = .op .has) (w : Operand) (first : Nat) :
    (Pending.leading w first).next l = .has w.toLiteral := by
  obtain ⟨_, i⟩ := l
  obtain rfl := h
  cases w <;> rfl

theorem Pending.next_operator {l : Lexeme} {o : Operator} (h : l.token = .op o) (ho : o ≠ .has)
    (attr : String) (first : Nat) :
    (Pending.leading (.word attr) first).next l = .operator attr o := by
  obtain ⟨_, i⟩ := l
  obtain rfl := h
  cases o with
  | has => exact absurd rfl ho
  | _ => rfl

theorem Token.operand?_of_combinator? {t : Token} {opening : Opening}
    (h : t.combinator? = some opening) : t.operand? = none := by
  cases t <;> cases h <;> rfl

namespace Parser

variable {p q : Parser} {l : Lexeme}

/-! ## Lemmas: steps -/

theorem Takes.pending (h : p.Takes l q) : q.pending = p.pending.next l := by
  cases h with
  | leading ht => exact (Pending.next_operand ht).symm
  | operator ht ho => exact (Pending.next_operator ht ho _ _).symm
  | value => rfl
  | has ht => exact (Pending.next_has ht _ _).symm
  | member => rfl
  | leftParen ht => exact (Pending.next_nothing (by rw [ht]; rfl)).symm
  | combinator ht => exact (Pending.next_nothing (Token.operand?_of_combinator? ht)).symm
  | rightParen ht => exact (Pending.next_nothing (by rw [ht]; rfl)).symm

theorem Takes.steady (h : p.Takes l q) (ha : p.awaitingParen = false) : q.Steady := by
  cases h with
  | combinator => exact fun _ => ⟨rfl, List.cons_ne_nil _ _⟩
  | _ => exact steady_of_not_awaiting ha

theorem Feeds.pending (h : p.Feeds l q) : q.pending = p.pending.next l := by
  cases h with
  | take _ h => exact h.pending
  | parenthesis hl => exact (Pending.next_nothing (by rw [hl]; rfl)).symm
  | bare _ _ h => exact h.pending

theorem Feeds.steady (h : p.Feeds l q) : q.Steady := by
  cases h with
  | take ha h => exact h.steady ha
  | parenthesis => exact steady_of_not_awaiting rfl
  | bare _ _ h => exact h.steady rfl

/-! ## Lemmas: runs -/

theorem pending_of_run {ls : List Lexeme} (hs : p.Steady) (h : ls.foldlM feed p = .ok q) :
    q.Steady ∧ q.pending = ls.foldl Pending.next p.pending := by
  induction ls generalizing p with
  | nil =>
    cases h
    exact ⟨hs, rfl⟩
  | cons l ls ih =>
    rw [List.foldlM_cons] at h
    obtain ⟨p', hl, h⟩ := bind_eq_ok_iff.1 h
    have hfeeds := (feed_eq_ok_iff hs).1 hl
    rw [List.foldl_cons, ← hfeeds.pending]
    exact ih hfeeds.steady h

end Parser

end PictureSearch.Query

import PictureSearch.Proofs.Query.Taking

/-!
# What derives is run through

From between two clauses the parser runs through the tokens of a clause and is between two clauses
again, with the tree of the clause pushed:

    Clause room ts n → stack.length + room = maxDepth → ls.map Lexeme.token = ts →
      ls.foldlM feed (settled root stack) = .ok ((settled root stack).push n)         (run_clause)

The induction is on the derivation; a group's frame lies on the stack while its clauses are run.
-/

namespace PictureSearch.Query

namespace Parser

/-! ## Lemmas: comparisons and groups -/

theorem exists_lexeme {ls : List Lexeme} {t : Token} {ts : List Token}
    (h : ls.map Lexeme.token = t :: ts) :
    ∃ offset rest, ls = ⟨t, offset⟩ :: rest ∧ rest.map Lexeme.token = ts := by
  obtain ⟨⟨t, offset⟩, rest, rfl, rfl, hr⟩ := List.map_eq_cons_iff.1 h
  exact ⟨offset, rest, rfl, hr⟩

theorem exists_three_lexemes {ls : List Lexeme} {a b c : Token}
    (h : ls.map Lexeme.token = [a, b, c]) : ∃ i j k, ls = [⟨a, i⟩, ⟨b, j⟩, ⟨c, k⟩] := by
  obtain ⟨i, ls, rfl, hb⟩ := exists_lexeme h
  obtain ⟨j, ls, rfl, hc⟩ := exists_lexeme hb
  obtain ⟨k, ls, rfl, hn⟩ := exists_lexeme hc
  exact ⟨i, j, k, by rw [List.map_eq_nil_iff.1 hn]⟩

theorem run_three {p q r s : Parser} {a b c : Lexeme} (hp : p.feed a = .ok q)
    (hq : q.feed b = .ok r) (hr : r.feed c = .ok s) : [a, b, c].foldlM feed p = .ok s := by
  simp only [List.foldlM_cons, List.foldlM_nil, hp, hq, hr, bind, Except.bind, pure, Except.pure]

section

variable {root : List Node} {stack : List Frame}

theorem run_comparison {ts : List Token} {c : Compare} (h : Comparison ts c) {ls : List Lexeme}
    (hl : ls.map Lexeme.token = ts) :
    ls.foldlM feed (settled root stack) = .ok ((settled root stack).push (.compare c)) := by
  cases h with
  | @scalar attr o t value hattr ho hv hw =>
    obtain ⟨i, j, k, rfl⟩ := exists_three_lexemes hl
    obtain ⟨w, ht, rfl⟩ := spells_iff.1 hv
    have first : (settled root stack).feed ⟨.word attr, i⟩ =
        .ok ⟨root, stack, .leading (.word attr) i, false⟩ := rfl
    have second : feed ⟨root, stack, .leading (.word attr) i, false⟩ ⟨.op o, j⟩ =
        .ok ⟨root, stack, .operator attr o, false⟩ := by
      show take ⟨root, stack, .leading (.word attr) i, false⟩ ⟨.op o, j⟩ = _
      rw [take_op rfl ho]
      show checkAttribute attr i >>= _ = _
      rw [checkAttribute_eq_ok_iff.2 hattr]
      rfl
    have third : feed ⟨root, stack, .operator attr o, false⟩ ⟨t, k⟩ =
        .ok ((settled root stack).push (.compare ⟨attr, o.relation w.toLiteral, w.toLiteral⟩)) := by
      show take ⟨root, stack, .operator attr o, false⟩ ⟨t, k⟩ = _
      rw [take_operand ht]
      show comparison attr o w.toLiteral k >>= _ = _
      rw [comparison_eq_ok_iff.2 ⟨hw, rfl⟩]
      rfl
    exact run_three first second third
  | @membership t value attr hv hw hattr =>
    obtain ⟨i, j, k, rfl⟩ := exists_three_lexemes hl
    obtain ⟨w, ht, rfl⟩ := spells_iff.1 hv
    have first : (settled root stack).feed ⟨t, i⟩ = .ok ⟨root, stack, .leading w i, false⟩ := by
      show take (settled root stack) ⟨t, i⟩ = _
      rw [take_operand ht]
      rfl
    have second : feed ⟨root, stack, .leading w i, false⟩ ⟨.op .has, j⟩ =
        .ok ⟨root, stack, .has w.toLiteral, false⟩ := by
      show membership ⟨root, stack, .leading w i, false⟩ j = _
      simp [membership, hw]
    have third : feed ⟨root, stack, .has w.toLiteral, false⟩ ⟨.word attr, k⟩ =
        .ok ((settled root stack).push (.compare ⟨attr, .has, w.toLiteral⟩)) := by
      show checkAttribute attr k >>= _ = _
      rw [checkAttribute_eq_ok_iff.2 hattr]
      rfl
    exact run_three first second third

theorem combinator_settled {opening : Opening} {offset : Nat} (hd : stack.length < maxDepth) :
    (settled root stack).combinator opening offset =
      .ok ⟨root, ⟨opening, [], offset, false⟩ :: stack, .nothing, true⟩ := by
  have ho : (settled root stack).openGroup opening offset false =
      .ok (settled root (⟨opening, [], offset, false⟩ :: stack)) :=
    openGroup_eq_ok_iff.2 ⟨hd, rfl⟩
  show (settled root stack).openGroup opening offset false >>= _ = _
  rw [ho]
  rfl

/-- The sign of a group and its parenthesis open a frame. -/
theorem run_opening (root : List Node) {opening : Opening} {ls : List Lexeme}
    (hl : ls.map Lexeme.token = opening.sign ++ [.leftParen]) (hd : stack.length < maxDepth) :
    ∃ offset, ls.foldlM feed (settled root stack) =
      .ok (settled root (⟨opening, [], offset, true⟩ :: stack)) := by
  cases opening with
  | bare =>
    obtain ⟨i, ls, rfl, hr⟩ := exists_lexeme hl
    obtain rfl := List.map_eq_nil_iff.1 hr
    refine ⟨i, ?_⟩
    have ho : (settled root stack).openGroup .bare i true =
        .ok (settled root (⟨.bare, [], i, true⟩ :: stack)) :=
      openGroup_eq_ok_iff.2 ⟨hd, rfl⟩
    show (settled root stack).openGroup .bare i true >>= pure = _
    rw [ho]
    rfl
  | _ =>
    obtain ⟨i, ls, rfl, hp⟩ := exists_lexeme hl
    obtain ⟨j, ls, rfl, hr⟩ := exists_lexeme hp
    obtain rfl := List.map_eq_nil_iff.1 hr
    refine ⟨i, ?_⟩
    show (settled root stack).combinator _ i >>= _ = _
    rw [combinator_settled hd]
    rfl

theorem feed_rightParen {f : Frame} {n : Node} {offset : Nat} (hf : f.parenthesized = true)
    (hn : f.toNode = .ok n) :
    (settled root (f :: stack)).feed ⟨.rightParen, offset⟩ = .ok ((settled root stack).push n) := by
  show (settled root (f :: stack)).close offset = _
  simp [close, ensureIdle, hf, hn, bind, Except.bind, pure, Except.pure]

/-- A group in parentheses is run through once the clauses in it are. -/
theorem run_group (opening : Opening) (ns : List Node) {ts : List Token} {n : Node}
    {ls : List Lexeme}
    (hl : ls.map Lexeme.token = opening.sign ++ .leftParen :: (ts ++ [.rightParen]))
    (hd : stack.length < maxDepth)
    (hin : ∀ offset (inner : List Lexeme), inner.map Lexeme.token = ts →
      inner.foldlM feed (settled root (⟨opening, [], offset, true⟩ :: stack)) =
        .ok (settled root (⟨opening, ns, offset, true⟩ :: stack)))
    (hn : ∀ offset, Frame.toNode ⟨opening, ns, offset, true⟩ = .ok n) :
    ls.foldlM feed (settled root stack) = .ok ((settled root stack).push n) := by
  rw [List.append_cons, ← List.append_assoc] at hl
  obtain ⟨ls, last, rfl, hls, hlast⟩ := List.map_eq_append_iff.1 hl
  obtain ⟨opened, inner, rfl, hopened, hinner⟩ := List.map_eq_append_iff.1 hls
  obtain ⟨offset, ho⟩ := run_opening root hopened hd
  obtain ⟨j, last, rfl, hnil⟩ := exists_lexeme hlast
  obtain rfl := List.map_eq_nil_iff.1 hnil
  rw [List.foldlM_append, List.foldlM_append, ho]
  show (inner.foldlM feed _ >>= fun p => [_].foldlM feed p) = _
  rw [hin offset inner hinner]
  show feed _ _ >>= pure = _
  rw [feed_rightParen rfl (hn offset)]
  rfl

/-- Behind a negation without parenthesis the operand closes it. -/
theorem run_bareNot {ts : List Token} {n : Node} {ls : List Lexeme}
    (hl : ls.map Lexeme.token = .not :: ts)
    (hd : stack.length < maxDepth) (hne : ts.head? ≠ some .leftParen) (hts : ts ≠ [])
    (hin : ∀ offset (inner : List Lexeme), inner.map Lexeme.token = ts →
      inner.foldlM feed (settled root (⟨.not, [], offset, false⟩ :: stack)) =
        .ok ((settled root (⟨.not, [], offset, false⟩ :: stack)).push n)) :
    ls.foldlM feed (settled root stack) = .ok ((settled root stack).push (.group .not [n])) := by
  obtain ⟨i, ls, rfl, hinner⟩ := exists_lexeme hl
  have hrun := hin i ls hinner
  obtain ⟨t, ts, rfl⟩ := List.exists_cons_of_ne_nil hts
  obtain ⟨j, ls, rfl, hrest⟩ := exists_lexeme hinner
  have ht : t ≠ .leftParen := by simpa using hne
  -- the operand's first token clears the flag and is then taken as from between two clauses
  have hfirst : feed ⟨root, ⟨.not, [], i, false⟩ :: stack, .nothing, true⟩ ⟨t, j⟩ =
      (settled root (⟨.not, [], i, false⟩ :: stack)).feed ⟨t, j⟩ := by
    simp [feed, ht]
  rw [List.foldlM_cons]
  show (settled root stack).combinator .not i >>= _ = _
  rw [combinator_settled hd]
  show List.foldlM feed ⟨root, ⟨.not, [], i, false⟩ :: stack, .nothing, true⟩ (⟨t, j⟩ :: ls) = _
  rw [List.foldlM_cons, hfirst, ← List.foldlM_cons, hrun]
  simp [push, pushOnto]

end

/-! ## Lemmas: derivations -/

mutual

theorem run_clause {room : Nat} {ts : List Token} {n : Node} (h : Clause room ts n)
    (root : List Node) (stack : List Frame) (hd : stack.length + room = maxDepth) {ls : List Lexeme}
    (hl : ls.map Lexeme.token = ts) :
    ls.foldlM feed (settled root stack) = .ok ((settled root stack).push n) := by
  cases h with
  | comparison hc => exact run_comparison hc hl
  | @parentheses room ts ns hs =>
    refine run_group .bare ns hl (by omega)
      (fun i inner hi => run_clauses hs root ⟨.bare, [], i, true⟩ stack rfl (by omega) hi) ?_
    intro offset
    rcases ns with _ | ⟨n, _ | _⟩ <;> rfl
  | and hs =>
    exact run_group .and _ hl (by omega)
      (fun i inner hi => run_clauses hs root ⟨.and, [], i, true⟩ stack rfl (by omega) hi)
      (fun _ => rfl)
  | or hs =>
    exact run_group .or _ hl (by omega)
      (fun i inner hi => run_clauses hs root ⟨.or, [], i, true⟩ stack rfl (by omega) hi)
      (fun _ => rfl)
  | not hn =>
    refine run_group .not [_] hl (by omega) (fun i inner hi => ?_) (fun _ => rfl)
    exact run_clause hn root (⟨.not, [], i, true⟩ :: stack) (by simp; omega) hi
  | bareNot hn hne =>
    exact run_bareNot hl (by omega) hne hn.ne_nil
      (fun i inner hi => run_clause hn root (⟨.not, [], i, false⟩ :: stack) (by simp; omega) hi)

theorem run_clauses {room : Nat} {ts : List Token} {ns : List Node} (h : Clauses room ts ns)
    (root : List Node) (f : Frame) (stack : List Frame) (hf : f.parenthesized = true)
    (hd : stack.length + 1 + room = maxDepth) {ls : List Lexeme} (hl : ls.map Lexeme.token = ts) :
    ls.foldlM feed (settled root (f :: stack)) =
      .ok (settled root ({ f with children := f.children ++ ns } :: stack)) := by
  cases h with
  | nil =>
    rw [List.map_eq_nil_iff.1 hl]
    simp [pure, Except.pure]
  | @cons _ ts us n ns hn hs =>
    obtain ⟨first, rest, rfl, hfirst, hrest⟩ := List.map_eq_append_iff.1 hl
    rw [List.foldlM_append, run_clause hn root (f :: stack) hd hfirst]
    have hp : (settled root (f :: stack)).push n =
        settled root ({ f with children := f.children ++ [n] } :: stack) := by
      simp [push, pushOnto, hf]
    show rest.foldlM feed _ = _
    rw [hp, run_clauses hs root { f with children := f.children ++ [n] } stack hf hd hrest]
    simp

end

/-- Outside all groups the clauses go behind the root, one after the other. -/
theorem run_root {ts : List Token} {ns : List Node} (h : Clauses maxDepth ts ns)
    (root : List Node) {ls : List Lexeme} (hl : ls.map Lexeme.token = ts) :
    ls.foldlM feed (settled root []) = .ok (settled (root ++ ns) []) := by
  cases h with
  | nil =>
    rw [List.map_eq_nil_iff.1 hl, List.append_nil]
    rfl
  | @cons _ ts us n ns hn hs =>
    obtain ⟨first, rest, rfl, hfirst, hrest⟩ := List.map_eq_append_iff.1 hl
    rw [List.foldlM_append, run_clause hn root [] (Nat.zero_add _) hfirst]
    show rest.foldlM feed (settled (root ++ [n]) []) = _
    rw [run_root hs (root ++ [n]) hrest, List.append_assoc]
    rfl

end Parser

end PictureSearch.Query

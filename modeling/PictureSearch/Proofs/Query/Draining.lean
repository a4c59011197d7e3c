import PictureSearch.Proofs.Query.Positions
import PictureSearch.Query.Cursor

/-!
# Asking for lexeme after lexeme

A cursor hands out what the scan of its text holds, an item a call, and then nothing for ever.  Two
characters are fed for each one of the text at most: one that is handed back waits at the start of
a token, and there it is taken or refused.

    (ofText text).item k = (scan text).items[k]?
    (ofText text).Advances text.length k
                                                                             (ofText_advances)

What is handed out is followed by what is left (`Cursor.Remaining`).  What is fed is paid for by the
characters that are still to be fed, two for each that was never fed and one for the one that waits
(`Cursor.credit`).
-/

namespace PictureSearch.Query

/-! ## Statements -/

/-- The lexemes, and behind them the error if there is one. -/
def Scan.items (s : Scan) : List (Except SyntaxError Lexeme) :=
  s.lexemes.map .ok ++ s.stop.toList.map .error

namespace Cursor

/-- The characters that are still to be fed. -/
def unread (x : Cursor) : List (Nat × Char) := x.retry.toList ++ x.rest

/-- The cursor behind so many calls. -/
def after (x : Cursor) : Nat → Cursor
  | 0 => x
  | k + 1 => (x.after k).next.cursor

/-- What the call behind `k` others hands out. -/
def item (x : Cursor) (k : Nat) : Option (Except SyntaxError Lexeme) := (x.after k).next.item

/-- The lexemes that `k` calls hand out. -/
def lexemes (x : Cursor) : Nat → List Lexeme
  | 0 => []
  | k + 1 => x.lexemes k ++ ((x.item k).bind Except.toOption).toList

/-- How many characters `k` calls feed. -/
def fed (x : Cursor) : Nat → Nat
  | 0 => 0
  | k + 1 => x.fed k + (x.after k).next.fed

/-- What holds of the first `k` calls, where `n` characters are to be fed. -/
structure Advances (x : Cursor) (n k : Nat) : Prop where
  fed : x.fed k ≤ 2 * n
  /-- A character that waits is fed from the start of a token, and the next call gets rid of it. -/
  retried : ∀ c ∈ (x.after k).retry,
    (x.after k).state = .start ∧ (x.after (k + 1)).unread <:+ (x.after k).rest
  handedOut : (x.lexemes k).length ≤ n
  ascending : ((x.lexemes k).map Lexeme.offset).Pairwise (· < ·)
  /-- Behind an error and behind the end of the text nothing more is handed out. -/
  silent : x.item k = none ∨ (∃ e, x.item k = some (.error e)) ∨ (x.after (k + 1)).unread = [] →
    ∀ m, k < m → x.item m = none
  ends : n ≤ k → x.item k = none

end Cursor

/-! ## Lemmas: steps -/

section

variable {s next : State} {c : Char} {offset : Nat} {l : Lexeme}

theorem step_start_ne_handedBack (c : Char) (offset : Nat) (l : Lexeme) :
    State.start.step c offset ≠ .ok (.handedBack l) := by
  intro h
  obtain ⟨t, -, ht⟩ := map_eq_ok_iff.1 h
  cases ht

/-- Behind a token that is complete the next one starts. -/
theorem next_eq_start_of_start (h : start c offset = .ok ⟨some l, next⟩) : next = .start := by
  unfold start at h
  repeat' split at h
  all_goals cases h
  all_goals rfl

theorem next_eq_start_of_step (h : s.step c offset = .ok (.taken ⟨some l, next⟩)) :
    next = .start := by
  cases s with
  | start =>
    obtain ⟨t, ht, heq⟩ := map_eq_ok_iff.1 h
    cases heq
    exact next_eq_start_of_start ht
  | word | integer =>
    dsimp only [State.step] at h
    repeat' split at h
    all_goals cases h
  | quoted | angle | bang =>
    dsimp only [State.step] at h
    split at h
    · cases h
      rfl
    · cases h

end

/-! ## Lemmas: the scan -/

section

variable {s : Scan} {offset k : Nat} {cs : List Char} {l : Lexeme}

theorem Scan.items_after (s : Scan) (l : Lexeme) :
    (s.after (some l)).items = .ok l :: s.items := rfl

theorem Scan.length_items (s : Scan) :
    s.items.length = s.lexemes.length + s.stop.toList.length := by
  simp [items]

/-- An error is the last item. -/
theorem Scan.length_items_of_error {e : SyntaxError} (h : s.items[k]? = some (.error e)) :
    s.items.length = k + 1 := by
  obtain ⟨ls, stop⟩ := s
  induction ls generalizing k with
  | nil =>
    cases stop with
    | none => cases h
    | some d =>
      cases k with
      | zero => rfl
      | succ k => cases h
  | cons l ls ih =>
    cases k with
    | zero => cases h
    | succ k => exact congrArg (· + 1) (ih h)

theorem Scan.getElem?_lexemes (s : Scan) (k : Nat) :
    s.lexemes[k]? = s.items[k]?.bind Except.toOption := by
  obtain ⟨ls, stop⟩ := s
  induction ls generalizing k with
  | nil => cases stop <;> cases k <;> rfl
  | cons l ls ih =>
    cases k with
    | zero => rfl
    | succ k => exact ih k

theorem Cuts.length_items_le (h : Cuts offset cs s) : s.items.length ≤ cs.length := by
  induction h with
  | done => exact Nat.le_refl _
  | blank _ _ ih => exact Nat.le_succ_of_le ih
  | @lexeme offset t run rest s hs _ _ ih =>
    have hpos := List.length_pos_iff.2 hs.ne_nil
    have hitems : (Scan.mk (⟨t, offset⟩ :: s.lexemes) s.stop).items.length = s.items.length + 1 :=
      rfl
    rw [hitems, List.length_append]
    omega
  | @refused offset cs cause n h =>
    have hstands : StandsIn 0 cs (0 + n) := h.standsIn
    obtain ⟨before, c, after, rfl, -⟩ := hstands
    show 1 ≤ (before ++ c :: after).length
    rw [List.length_append, List.length_cons]
    omega

theorem StandsIn.le {n : Nat} (h : StandsIn offset cs n) : offset ≤ n := by
  obtain ⟨before, c, after, -, -, rfl⟩ := h
  exact Nat.le_add_right _ _

theorem Cuts.ascending (h : Cuts offset cs s) :
    (s.lexemes.map Lexeme.offset).Pairwise (· < ·) := by
  induction h with
  | done => exact .nil
  | blank _ _ ih => exact ih
  | @lexeme offset t run rest s hs _ hcuts ih =>
    refine List.pairwise_cons.2 ⟨?_, ih⟩
    intro n hn
    obtain ⟨l, hl, rfl⟩ := List.mem_map.1 hn
    have hle := (hcuts.standsIn.1 l hl).le
    have hhead : StandsIn offset (run ++ []) offset := hs.standsIn []
    rw [List.append_nil] at hhead
    exact Nat.lt_of_lt_of_le hhead.lt hle
  | refused => exact .nil

end

namespace Cursor

/-! ## Lemmas: one call -/

section

variable {s next : State} {c : Char} {offset : Nat} {l : Lexeme} {cs : List (Nat × Char)}

theorem pull_of_kept (h : s.step c offset = .ok (.taken ⟨none, next⟩)) :
    pull s ((offset, c) :: cs) = { pull next cs with fed := (pull next cs).fed + 1 } := by
  rw [pull, h]

theorem pull_of_completed (h : s.step c offset = .ok (.taken ⟨some l, next⟩)) :
    pull s ((offset, c) :: cs) = ⟨some (.ok l), ⟨cs, next, none, false⟩, 1⟩ := by
  rw [pull, h]

theorem pull_of_handedBack (h : s.step c offset = .ok (.handedBack l)) :
    pull s ((offset, c) :: cs) = ⟨some (.ok l), ⟨cs, .start, some (offset, c), false⟩, 1⟩ := by
  rw [pull, h]

theorem pull_of_error {e : SyntaxError} (h : s.step c offset = .error e) :
    pull s ((offset, c) :: cs) = ⟨some (.error e), ⟨cs, .start, none, true⟩, 1⟩ := by
  rw [pull, h]

end

/-! ## Lemmas: what is left -/

section

variable {x : Cursor} {items : List (Except SyntaxError Lexeme)}

/-- What the cursor has still to hand out. -/
inductive Remaining : Cursor → List (Except SyntaxError Lexeme) → Prop
  | exhausted {x : Cursor} :
      x.exhausted = true → x.state = .start → x.retry = none → Remaining x []
  | unread {x : Cursor} {offset : Nat} {cs : List Char} :
      x.exhausted = false → x.state = .start → x.unread = placed offset cs →
        Remaining x (scanFrom .start offset cs).items

theorem pull_placed (s : State) (offset : Nat) (cs : List Char) :
    (pull s (placed offset cs)).item = (scanFrom s offset cs).items.head? ∧
      (pull s (placed offset cs)).cursor.Remaining (scanFrom s offset cs).items.tail := by
  induction cs generalizing s offset with
  | nil =>
    unfold placed pull scanFrom State.flush
    cases s.finish with
    | error e => exact ⟨rfl, .exhausted rfl rfl rfl⟩
    | ok lexeme => cases lexeme <;> exact ⟨rfl, .exhausted rfl rfl rfl⟩
  | cons c cs ih =>
    unfold placed
    cases hstep : s.step c offset with
    | error e =>
      rw [pull_of_error hstep, scanFrom_of_error hstep]
      exact ⟨rfl, .exhausted rfl rfl rfl⟩
    | ok step =>
      cases step with
      | handedBack l =>
        rw [pull_of_handedBack hstep, scanFrom_cons_of_handedBack hstep, Scan.items_after]
        exact ⟨rfl, .unread rfl rfl rfl⟩
      | taken t =>
        obtain ⟨lexeme, next⟩ := t
        cases lexeme with
        | none =>
          rw [pull_of_kept hstep, scanFrom_of_kept hstep]
          exact ih next _
        | some l =>
          obtain rfl := next_eq_start_of_step hstep
          rw [pull_of_completed hstep, scanFrom_of_completed hstep, Scan.items_after]
          exact ⟨rfl, .unread rfl rfl rfl⟩

theorem Remaining.next (h : x.Remaining items) :
    x.next.item = items.head? ∧ x.next.cursor.Remaining items.tail := by
  unfold Cursor.next
  cases h with
  | exhausted hx hstart hretry =>
    rw [if_pos hx]
    exact ⟨rfl, .exhausted hx hstart hretry⟩
  | unread hx hstart hunread =>
    unfold Cursor.unread at hunread
    rw [hx, hstart, hunread]
    exact pull_placed .start _ _

theorem Remaining.after (h : x.Remaining items) (k : Nat) :
    (x.after k).Remaining (items.drop k) := by
  induction k with
  | zero => exact h
  | succ k ih =>
    rw [← List.tail_drop]
    exact ih.next.2

theorem Remaining.item (h : x.Remaining items) (k : Nat) : x.item k = items[k]? := by
  rw [← List.head?_drop]
  exact (h.after k).next.1

theorem Remaining.eq_nil (h : x.Remaining items) (hx : x.unread = []) : items = [] := by
  cases h with
  | exhausted => rfl
  | @unread offset cs _ _ hunread =>
    rw [hx] at hunread
    cases cs with
    | nil => rfl
    | cons => cases hunread

theorem Remaining.state (h : x.Remaining items) : x.state = .start := by
  cases h with
  | exhausted _ hstart _ => exact hstart
  | unread _ hstart _ => exact hstart

theorem remaining_ofText (text : String) : (ofText text).Remaining (scan text).items :=
  .unread rfl rfl rfl

end

/-! ## Lemmas: what is fed -/

/-- How often characters may be fed yet: each one that was never fed twice, and once the one that
waits. -/
def credit (x : Cursor) : Nat := 2 * x.rest.length + x.retry.toList.length

/-- What is still to be fed behind the call ends `cs`, and what the call feeds is paid for out of
`n`. -/
structure Spends (p : Pull) (cs : List (Nat × Char)) (n : Nat) : Prop where
  unread : p.cursor.unread <:+ cs
  credit : p.fed + p.cursor.credit ≤ n

section

variable {x : Cursor} {items : List (Except SyntaxError Lexeme)}

/-- A call whose first character is not handed back. -/
theorem pull_cons_spends {s : State} {offset : Nat} {c : Char} {cs : List (Nat × Char)}
    (hs : ∀ l, s.step c offset ≠ .ok (.handedBack l))
    (hrest : ∀ next, Spends (pull next cs) cs (2 * cs.length)) :
    Spends (pull s ((offset, c) :: cs)) cs (2 * cs.length + 1) := by
  have hgone : 1 + (2 * cs.length + 0) ≤ 2 * cs.length + 1 := by omega
  cases hstep : s.step c offset with
  | error e =>
    rw [pull_of_error hstep]
    exact ⟨List.suffix_rfl, hgone⟩
  | ok step =>
    cases step with
    | handedBack l => exact absurd hstep (hs l)
    | taken t =>
      obtain ⟨lexeme, next⟩ := t
      cases lexeme with
      | none =>
        rw [pull_of_kept hstep]
        refine ⟨(hrest next).unread, ?_⟩
        have hcredit := (hrest next).credit
        show (pull next cs).fed + 1 + (pull next cs).cursor.credit ≤ 2 * cs.length + 1
        omega
      | some l =>
        rw [pull_of_completed hstep]
        exact ⟨List.suffix_rfl, hgone⟩

theorem pull_spends (s : State) (cs : List (Nat × Char)) :
    Spends (pull s cs) cs (2 * cs.length) := by
  induction cs generalizing s with
  | nil => exact ⟨List.suffix_rfl, Nat.le_refl _⟩
  | cons a cs ih =>
    obtain ⟨offset, c⟩ := a
    by_cases hback : ∃ l, s.step c offset = .ok (.handedBack l)
    · obtain ⟨l, hl⟩ := hback
      rw [pull_of_handedBack hl]
      refine ⟨List.suffix_rfl, ?_⟩
      show 1 + (2 * cs.length + 1) ≤ 2 * (cs.length + 1)
      omega
    · have h := pull_cons_spends (not_exists.1 hback) ih
      exact ⟨h.unread.trans (List.suffix_cons _ _), Nat.le_succ_of_le h.credit⟩

/-- From the start of a token the first character is not handed back. -/
theorem pull_start_spends (a : Nat × Char) (cs : List (Nat × Char)) :
    Spends (pull .start (a :: cs)) cs (2 * cs.length + 1) :=
  pull_cons_spends (step_start_ne_handedBack a.2 a.1) fun next => pull_spends next cs

theorem Remaining.next_eq_pull (h : x.Remaining items) (hx : x.exhausted = false) :
    x.next = pull .start x.unread := by
  unfold Cursor.next
  rw [hx, h.state]
  rfl

theorem Remaining.spends (h : x.Remaining items) :
    x.next.fed + x.next.cursor.credit ≤ x.credit := by
  cases hx : x.exhausted with
  | true =>
    unfold Cursor.next
    rw [if_pos hx]
    exact Nat.le_of_eq (Nat.zero_add _)
  | false =>
    rw [h.next_eq_pull hx]
    unfold Cursor.unread credit
    cases x.retry with
    | none => exact (pull_spends .start x.rest).credit
    | some a => exact (pull_start_spends a x.rest).credit

theorem Remaining.retried (h : x.Remaining items) {a : Nat × Char} (ha : x.retry = some a) :
    x.next.cursor.unread <:+ x.rest := by
  have hx : x.exhausted = false := by
    cases h with
    | exhausted _ _ hretry =>
      rw [ha] at hretry
      cases hretry
    | unread hx => exact hx
  have hunread : x.unread = a :: x.rest := by
    rw [Cursor.unread, ha]
    rfl
  rw [h.next_eq_pull hx, hunread]
  exact (pull_start_spends a x.rest).unread

theorem Remaining.fed_le (h : x.Remaining items) (k : Nat) :
    x.fed k + (x.after k).credit ≤ x.credit := by
  induction k with
  | zero => exact Nat.le_of_eq (Nat.zero_add _)
  | succ k ih =>
    have hnext := (h.after k).spends
    show x.fed k + (x.after k).next.fed + (x.after k).next.cursor.credit ≤ x.credit
    omega

theorem length_placed (offset : Nat) (cs : List Char) : (placed offset cs).length = cs.length := by
  induction cs generalizing offset with
  | nil => rfl
  | cons c cs ih => exact congrArg (· + 1) (ih _)

theorem credit_ofText (text : String) : (ofText text).credit = 2 * text.length := by
  show 2 * (placed 0 text.toList).length + 0 = _
  rw [length_placed, String.length_toList, Nat.add_zero]

end

/-! ## Lemmas: what is handed out -/

theorem Remaining.lexemes {x : Cursor} {s : Scan} (h : x.Remaining s.items) (k : Nat) :
    x.lexemes k = s.lexemes.take k := by
  induction k with
  | zero => rfl
  | succ k ih =>
    unfold Cursor.lexemes
    rw [ih, h.item, ← Scan.getElem?_lexemes, List.take_add_one]

theorem Remaining.advances {x : Cursor} {s : Scan} {n : Nat} (h : x.Remaining s.items)
    (hcredit : x.credit ≤ 2 * n) (hlength : s.items.length ≤ n)
    (hascending : (s.lexemes.map Lexeme.offset).Pairwise (· < ·)) (k : Nat) : x.Advances n k where
  fed := by
    have := h.fed_le k
    omega
  retried c hc := ⟨(h.after k).state, (h.after k).retried hc⟩
  handedOut := by
    rw [h.lexemes, List.length_take]
    rw [Scan.length_items] at hlength
    omega
  ascending := by
    rw [h.lexemes]
    exact hascending.sublist ((List.take_sublist k s.lexemes).map _)
  silent hstop m hm := by
    have hlast : s.items.length ≤ k + 1 := by
      rcases hstop with hnone | ⟨e, he⟩ | hunread
      · rw [h.item, List.getElem?_eq_none_iff] at hnone
        exact Nat.le_succ_of_le hnone
      · rw [h.item] at he
        exact Nat.le_of_eq (Scan.length_items_of_error he)
      · exact List.drop_eq_nil_iff.1 ((h.after (k + 1)).eq_nil hunread)
    rw [h.item, List.getElem?_eq_none_iff]
    exact Nat.le_trans hlast hm
  ends hk := by
    rw [h.item, List.getElem?_eq_none_iff]
    exact Nat.le_trans hlength hk

/-! ## Top theorem -/

/-- **A cursor makes progress.**  It hands out what the scan of the text holds, never more items
than there are characters, and feeds no more than twice as many characters as there are; one that is
handed back is taken or refused the next time, since none is handed back at the start of a token. -/
theorem ofText_advances (text : String) :
    (∀ c offset l, State.start.step c offset ≠ .ok (.handedBack l)) ∧
      ∀ k, (ofText text).item k = (scan text).items[k]? ∧
        (ofText text).Advances text.length k := by
  have h := remaining_ofText text
  have hcuts := cuts_scan text
  have hlength : (scan text).items.length ≤ text.length := by
    rw [← String.length_toList]
    exact hcuts.length_items_le
  refine ⟨step_start_ne_handedBack, fun k => ⟨h.item k, ?_⟩⟩
  exact h.advances (Nat.le_of_eq (credit_ofText text)) hlength hcuts.ascending k

/-- The letter behind the exclamation mark is fed twice, and the quote behind it ends everything. -/
theorem ofText_advances_handedBack :
    ((ofText "!é'").after 1).retry = some (1, 'é') ∧
      ((ofText "!é'").after 2).unread <:+ ((ofText "!é'").after 1).rest ∧
        (ofText "!é'").item 1 = some (.error ⟨.quoteInWord, 3⟩) ∧
          (∀ m, 1 < m → (ofText "!é'").item m = none) ∧
            (ofText "!é'").fed 2 = 4 ∧ 4 ≤ 2 * "!é'".length := by
  have hretry : ((ofText "!é'").after 1).retry = some (1, 'é') := by decide
  have herror : (ofText "!é'").item 1 = some (.error ⟨.quoteInWord, 3⟩) := by decide
  have hfed : (ofText "!é'").fed 2 = 4 := by decide
  have first := ((ofText_advances "!é'").2 1).2
  have second := ((ofText_advances "!é'").2 2).2
  refine ⟨hretry, (first.retried _ hretry).2, herror, ?_, hfed, hfed ▸ second.fed⟩
  exact first.silent (.inr (.inl ⟨_, herror⟩))

end Cursor

end PictureSearch.Query

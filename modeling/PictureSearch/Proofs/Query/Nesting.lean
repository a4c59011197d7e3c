import PictureSearch.Proofs.Query.Lockstep
import PictureSearch.Proofs.Query.Pending

/-!
# The parser inside a group

A run that goes well goes as well behind a parenthesis, as long as there is room for one more
group: what it had finished at the top level are then clauses of that group, and what lies around
the group is left alone.

    f.parenthesized = true → p.Steady → p.peak ls < maxDepth → ls.foldlM feed p = .ok q →
      ls.foldlM feed (p.inside root f) = .ok (q.inside root f)                        (run_inside)

So nothing of a run is hidden from its end: a text that is read leaves the parser between two
clauses (`eq_settled_of_finish`).
-/

namespace PictureSearch.Query

namespace Parser

/-! ## Statements -/

/-- The most groups that are open at once while the lexemes are taken, up to the first error. -/
def peak (p : Parser) : List Lexeme → Nat
  | [] => p.stack.length
  | l :: ls =>
    match p.feed l with
    | .ok q => max p.stack.length (q.peak ls)
    | .error _ => p.stack.length

/-- The state where `f` was open before the run started. -/
def inside (p : Parser) (root : List Node) (f : Frame) : Parser :=
  { p with root, stack := p.stack ++ [{ f with children := f.children ++ p.root }] }

/-! ## Lemmas: the peak -/

section

variable {p q : Parser} {l : Lexeme} {ls ms : List Lexeme}

theorem length_le_peak (p : Parser) (ls : List Lexeme) : p.stack.length ≤ p.peak ls := by
  cases ls with
  | nil => exact Nat.le_refl _
  | cons l ls =>
    unfold peak
    split
    · exact Nat.le_max_left _ _
    · exact Nat.le_refl _

theorem peak_le_of_feed (h : p.feed l = .ok q) (ls : List Lexeme) :
    q.peak ls ≤ p.peak (l :: ls) := by
  rw [peak, h]
  exact Nat.le_max_right _ _

theorem length_eq_of_alike {R : Nat → Nat → Prop} (h : p.Alike R q) :
    p.stack.length = q.stack.length := by
  obtain ⟨hstack, -⟩ := h
  exact hstack.length_eq

/-- The offsets play no part in how many groups are open. -/
theorem peak_alike {R : Nat → Nat → Prop} (h : p.Alike R q)
    (hlm : List.Forall₂ (Lexeme.Alike R) ls ms) : p.peak ls = q.peak ms := by
  induction hlm generalizing p q with
  | nil => exact length_eq_of_alike h
  | @cons l m ls ms hl _ ih =>
    have hfeed := feed_alike h hl
    unfold peak
    rw [length_eq_of_alike h]
    generalize p.feed l = x at hfeed ⊢
    generalize q.feed m = y at hfeed ⊢
    cases hfeed with
    | ok h =>
      dsimp only
      rw [ih h]
    | error => rfl

end

/-! ## Lemmas: steps inside a group -/

section

variable {p q : Parser} {root : List Node} {f : Frame} {l : Lexeme}

theorem pushOnto_inside (hf : f.parenthesized = true) (root done : List Node) (fs : List Frame)
    (n : Node) :
    pushOnto root (fs ++ [{ f with children := f.children ++ done }]) n =
      (root, (pushOnto done fs n).2 ++
        [{ f with children := f.children ++ (pushOnto done fs n).1 }]) := by
  induction fs generalizing n with
  | nil => simp [pushOnto, hf]
  | cons g fs ih =>
    rw [List.cons_append]
    unfold pushOnto
    split
    · exact ih _
    · rfl

theorem push_inside (hf : f.parenthesized = true) (root : List Node) (p : Parser) (n : Node) :
    (p.push n).inside root f = (p.inside root f).push n := by
  obtain ⟨done, fs, pending, awaiting⟩ := p
  unfold push inside
  dsimp only
  rw [pushOnto_inside hf]

theorem Takes.inside (hf : f.parenthesized = true) (h : p.Takes l q)
    (hroom : q.stack.length < maxDepth) : (p.inside root f).Takes l (q.inside root f) := by
  cases h with
  | leading ht => exact .leading ht
  | operator ht ho hattr => exact .operator ht ho hattr
  | value ht hc =>
    rw [push_inside hf]
    exact .value ht hc
  | has ht hw => exact .has ht hw
  | member ht hattr =>
    rw [push_inside hf]
    exact .member ht hattr
  | leftParen ht => exact .leftParen ht (by simpa [Parser.inside] using hroom)
  | combinator ht => exact .combinator ht (by simpa [Parser.inside] using hroom)
  | rightParen ht hg hn =>
    -- the group that is closed is one of the run, above `f`
    rw [push_inside hf]
    exact .rightParen ht hg hn

theorem Feeds.inside (hf : f.parenthesized = true) (h : p.Feeds l q)
    (hroom : q.stack.length < maxDepth) : (p.inside root f).Feeds l (q.inside root f) := by
  cases h with
  | take ha h => exact .take ha (h.inside hf hroom)
  | parenthesis hl => exact .parenthesis hl
  | bare hl hg h => exact .bare hl hg (h.inside hf hroom)

theorem Steady.inside (hs : p.Steady) (root : List Node) (f : Frame) : (p.inside root f).Steady :=
  fun ha => ⟨(hs ha).1, List.append_ne_nil_of_left_ne_nil (hs ha).2 _⟩

/-! ## Lemmas: runs inside a group -/

theorem run_inside (hf : f.parenthesized = true) {ls : List Lexeme} (hs : p.Steady)
    (hpeak : p.peak ls < maxDepth) (h : ls.foldlM feed p = .ok q) :
    ls.foldlM feed (p.inside root f) = .ok (q.inside root f) := by
  induction ls generalizing p with
  | nil =>
    cases h
    rfl
  | cons l ls ih =>
    rw [List.foldlM_cons] at h ⊢
    obtain ⟨p', hl, h⟩ := bind_eq_ok_iff.1 h
    have hpeak' : p'.peak ls < maxDepth := Nat.lt_of_le_of_lt (peak_le_of_feed hl ls) hpeak
    have hroom : p'.stack.length < maxDepth := Nat.lt_of_le_of_lt (length_le_peak p' ls) hpeak'
    have hfeeds := (feed_eq_ok_iff hs).1 hl
    rw [(feed_eq_ok_iff (hs.inside root f)).2 (hfeeds.inside hf hroom)]
    exact ih hfeeds.steady hpeak' h

/-- A text that is read leaves no group open, no comparison half written and no combinator without
its parenthesis. -/
theorem eq_settled_of_finish {stop : Nat} {g : Group} (hs : p.Steady)
    (h : p.finish stop = .ok g) : p = settled g.children [] := by
  obtain ⟨_, hp, h⟩ := bind_eq_ok_iff.1 h
  have hpending := ensureIdle_eq_ok_iff.1 hp
  obtain ⟨done, fs, pending, awaiting⟩ := p
  obtain rfl : pending = .nothing := hpending
  cases fs with
  | cons g fs =>
    dsimp only at h
    split at h
    · cases h
    · split at h <;> cases h
  | nil =>
    cases h
    cases awaiting with
    | false => rfl
    | true => exact absurd rfl (hs rfl).2

end

end Parser

end PictureSearch.Query

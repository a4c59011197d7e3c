import PictureSearch.Proofs.Query.Lockstep
import PictureSearch.Proofs.Query.Munch

/-!
# Blanks between lexemes

What a text is read as depends on its tokens alone.  Blanks may be put in wherever no lexeme is cut
in two: the tokens stay, and what stands at that place or behind it moves on by as many bytes as
were put in, the position of an error included.

    SameTokens a b →
      (parse a).mapError SyntaxError.message = (parse b).mapError SyntaxError.message
    (scan (u ++ v)).stop = none → ¬ CutsLexeme (u ++ v) u.utf8ByteSize →
      (∀ c ∈ w.toList, Text.isBlank c = true) →
        scan (u ++ w ++ v) = (scan (u ++ v)).moved u.utf8ByteSize w.utf8ByteSize
                                                                                 (parse_by_tokens)

The lexer is followed through `Cuts`, where a lexeme ends before any character that is no part of
it, so that a blank behind it does no harm; the parser goes in step with itself (`parse_alike`).
-/

namespace PictureSearch.Query

open String (utf8Len)

/-! ## Statements -/

/-- The texts are cut into the same tokens, up to their ends or up to the same fault. -/
structure SameTokens (a b : String) : Prop where
  tokens : (scan a).lexemes.map Lexeme.token = (scan b).lexemes.map Lexeme.token
  fault : (scan a).stop.map SyntaxError.cause = (scan b).stop.map SyntaxError.cause

/-- The lexeme fills the characters from its own byte up to byte `stop`, where `cs` stand from byte
`offset` on. -/
def Lexeme.EndsAt (l : Lexeme) (offset : Nat) (cs : List Char) (stop : Nat) : Prop :=
  ∃ before run rest, cs = before ++ (run ++ rest) ∧ l.token.SpelledBy run ∧ l.token.ClosedBy rest ∧
    l.offset = offset + utf8Len before ∧ stop = l.offset + utf8Len run

/-- The place is strictly inside a lexeme of the text. -/
def CutsLexeme (text : String) (place : Nat) : Prop :=
  ∃ l ∈ (scan text).lexemes, ∃ stop, l.EndsAt 0 text.toList stop ∧ l.offset < place ∧ place < stop

/-- Where byte `n` is found once `gap` bytes were put in at byte `place`. -/
def moved (place gap n : Nat) : Nat := if place ≤ n then n + gap else n

def Lexeme.moved (place gap : Nat) (l : Lexeme) : Lexeme :=
  { l with offset := Query.moved place gap l.offset }

def SyntaxError.moved (place gap : Nat) (e : SyntaxError) : SyntaxError :=
  { e with position := Query.moved place gap e.position }

def Scan.moved (s : Scan) (place gap : Nat) : Scan :=
  ⟨s.lexemes.map (Lexeme.moved place gap), s.stop.map (SyntaxError.moved place gap)⟩

/-! ## Lemmas: where a lexeme ends -/

section

variable {offset stop : Nat} {t : Token} {l : Lexeme} {cs run run' rest rest' : List Char}

/-- A number takes all digits there are. -/
theorem takeWhile_isDigit (hrun : ∀ c ∈ run, c.isDigit = true) (hends : Ends rest) :
    (run ++ rest).takeWhile Char.isDigit = run := by
  rw [List.takeWhile_append_of_pos hrun]
  cases rest with
  | nil => simp
  | cons c rest =>
    have hword := (hends c rfl).1
    simp only [isWordChar, Bool.or_eq_false_iff] at hword
    simp [isDigit_eq_false_of_isAlphanumeric hword.1.1]

/-- What is written of a token is settled by the text from there on. -/
theorem Token.SpelledBy.unique (hs : t.SpelledBy run) (hclosed : t.ClosedBy rest)
    (hs' : t.SpelledBy run') (hclosed' : t.ClosedBy rest') (h : run ++ rest = run' ++ rest') :
    run = run' := by
  cases t with
  | word w => exact hs.1.trans hs'.1.symm
  | integer n =>
    rw [← takeWhile_isDigit hs.2.1 hclosed, h, takeWhile_isDigit hs'.2.1 hclosed']
  | quoted s =>
    obtain ⟨quote, -, -, rfl⟩ := hs
    obtain ⟨quote', -, -, rfl⟩ := hs'
    obtain rfl : quote = quote' := (List.cons.inj h).1
    rfl
  | op o => exact hs.trans hs'.symm
  | leftParen | rightParen | and | or | not => exact hs.trans hs'.symm

/-- Of two cuts of one text the one at the smaller byte comes first. -/
theorem exists_between {a b c d : List Char} (h : a ++ b = c ++ d)
    (hle : utf8Len a ≤ utf8Len c) : ∃ between, c = a ++ between ∧ b = between ++ d := by
  rcases List.append_eq_append_iff.1 h with hcut | ⟨between, rfl, rfl⟩
  · exact hcut
  · rw [String.utf8Len_append] at hle
    obtain rfl : between = [] := String.utf8Len_eq_zero.1 (by omega)
    exact ⟨[], by simp, rfl⟩

theorem Lexeme.EndsAt.unique {stop' : Nat} (h : l.EndsAt offset cs stop)
    (h' : l.EndsAt offset cs stop') : stop = stop' := by
  obtain ⟨before, run, rest, rfl, hs, hclosed, hl, rfl⟩ := h
  obtain ⟨before', run', rest', hcs, hs', hclosed', hl', rfl⟩ := h'
  have hlen : utf8Len before = utf8Len before' := by omega
  obtain ⟨between, rfl, hrest⟩ := exists_between hcs (Nat.le_of_eq hlen)
  rw [String.utf8Len_append] at hlen
  obtain rfl : between = [] := String.utf8Len_eq_zero.1 (by omega)
  rw [hs.unique hclosed hs' hclosed' hrest]

theorem Lexeme.EndsAt.behind {front : List Char}
    (h : l.EndsAt (offset + utf8Len front) cs stop) : l.EndsAt offset (front ++ cs) stop := by
  obtain ⟨before, run, rest, rfl, hs, hclosed, hl, hstop⟩ := h
  refine ⟨front ++ before, run, rest, (List.append_assoc ..).symm, hs, hclosed, ?_, hstop⟩
  rw [hl, String.utf8Len_append, Nat.add_assoc]

theorem Lexeme.EndsAt.behind_cons {c : Char} (h : l.EndsAt (offset + c.utf8Size) cs stop) :
    l.EndsAt offset (c :: cs) stop := by
  have hlen : c.utf8Size = utf8Len [c] := (Nat.zero_add _).symm
  rw [hlen] at h
  exact h.behind

theorem Cuts.exists_endsAt {s : Scan} (h : Cuts offset cs s) :
    ∀ l ∈ s.lexemes, ∃ stop, l.EndsAt offset cs stop := by
  induction h with
  | done | refused => exact fun _ h => (nomatch h)
  | @blank offset c cs s _ _ ih =>
    intro l hl
    obtain ⟨stop, hstop⟩ := ih l hl
    exact ⟨stop, hstop.behind_cons⟩
  | @lexeme offset t run rest s hs hclosed _ ih =>
    refine List.forall_mem_cons.2 ⟨⟨_, [], run, rest, rfl, hs, hclosed, rfl, rfl⟩, ?_⟩
    intro l hl
    obtain ⟨stop, hstop⟩ := ih l hl
    exact ⟨stop, hstop.behind⟩

/-- So a place is inside a lexeme or not, whichever way the lexeme is found in the text. -/
theorem existsUnique_endsAt {text : String} (h : l ∈ (scan text).lexemes) :
    ∃! stop, l.EndsAt 0 text.toList stop := by
  obtain ⟨stop, hstop⟩ := (cuts_scan text).exists_endsAt l h
  exact ⟨stop, hstop, fun _ hother => hother.unique hstop⟩

end

/-! ## Lemmas: moving and blanks -/

section

variable {offset place gap : Nat} {u v w cs rest : List Char} {s : Scan} {t : Token} {l : Lexeme}

theorem moved_of_le {n : Nat} (h : place ≤ n) : moved place gap n = n + gap := if_pos h

theorem moved_of_lt {n : Nat} (h : n < place) : moved place gap n = n := if_neg (by omega)

/-- Behind the place all is moved by the same number of bytes. -/
theorem Cuts.moved (h : Cuts offset cs s) (hplace : place ≤ offset) (gap : Nat) :
    Cuts (offset + gap) cs (s.moved place gap) := by
  induction h with
  | done => exact .done
  | @blank offset c cs s hb _ ih =>
    have := ih (by omega)
    rw [Nat.add_right_comm] at this
    exact .blank hb this
  | @lexeme offset t cs rest s hs hclosed _ ih =>
    have hrest := ih (by omega)
    rw [Nat.add_right_comm] at hrest
    have hcut := Cuts.lexeme hs hclosed hrest
    rw [← moved_of_le hplace] at hcut ⊢
    exact hcut
  | @refused offset cs cause n h =>
    have hcut : Cuts (offset + gap) cs ⟨[], some ⟨cause, offset + gap + n⟩⟩ := .refused h
    rw [Nat.add_right_comm, ← moved_of_le (by omega : place ≤ offset + n)] at hcut
    exact hcut

theorem Cuts.blanks (hw : ∀ c ∈ w, Text.isBlank c = true)
    (h : Cuts (offset + utf8Len w) cs s) : Cuts offset (w ++ cs) s := by
  induction w generalizing offset with
  | nil => exact h
  | cons c w ih =>
    rw [List.forall_mem_cons] at hw
    rw [add_utf8Len_cons] at h
    exact .blank hw.1 (ih hw.2 h)

theorem not_isWordChar_of_isBlank {c : Char} (h : Text.isBlank c = true) :
    isWordChar c = false ∧ isQuote c = false := by
  have ha := Text.not_isAlphanumeric_of_isBlank h
  constructor
  · rw [← Bool.not_eq_true]
    simp only [isWordChar, ha, Bool.false_or, Bool.or_eq_true, beq_iff_eq]
    rintro (rfl | rfl) <;> revert h <;> decide
  · rw [← Bool.not_eq_true, isQuote_iff]
    rintro (rfl | rfl) <;> revert h <;> decide

/-- A character that is no part of a word, no quote and no equals sign ends every lexeme. -/
theorem Token.closedBy_of_ends {c : Char} (hends : isWordChar c = false ∧ isQuote c = false)
    (hequals : c ≠ '=') : t.ClosedBy (c :: rest) := by
  have hnext : Ends (c :: rest) := by
    rintro d ⟨⟩
    exact hends
  have hhead : (c :: rest).head? ≠ some '=' := by
    rintro ⟨⟩
    exact hequals rfl
  cases t with
  | word | integer => exact hnext
  | not => exact hhead
  | op o =>
    cases o with
    | gt | lt => exact hhead
    | _ => trivial
  | _ => trivial

theorem Token.closedBy_of_isBlank {c : Char} (hc : Text.isBlank c = true) :
    t.ClosedBy (c :: rest) := by
  refine closedBy_of_ends (not_isWordChar_of_isBlank hc) ?_
  rintro rfl
  revert hc
  decide

/-- Only the next character decides whether a lexeme ends. -/
theorem Token.ClosedBy.of_cons {c : Char} (h : t.ClosedBy (c :: cs)) (rest : List Char) :
    t.ClosedBy (c :: rest) := by
  cases t with
  | op o => cases o <;> exact h
  | _ => exact h

/-- Blanks that are put in somewhere behind a lexeme leave it as it is. -/
theorem Token.ClosedBy.insert (h : t.ClosedBy (u ++ v)) (hw : ∀ c ∈ w, Text.isBlank c = true) :
    t.ClosedBy (u ++ (w ++ v)) := by
  cases u with
  | cons c u => exact h.of_cons _
  | nil =>
    cases w with
    | nil => exact h
    | cons c w => exact closedBy_of_isBlank (hw c List.mem_cons_self)

/-- Blanks put in where the text has been read so far. -/
theorem Cuts.insert_front (h : Cuts offset cs s) (hw : ∀ c ∈ w, Text.isBlank c = true) :
    Cuts offset (w ++ cs) (s.moved offset (utf8Len w)) :=
  .blanks hw (h.moved (Nat.le_refl _) _)

theorem Cuts.insert (h : Cuts offset cs s) (hcs : cs = u ++ v) (hstop : s.stop = none)
    (hplace : ∀ l ∈ s.lexemes, ∀ stop, l.EndsAt offset cs stop →
      offset + utf8Len u ≤ l.offset ∨ stop ≤ offset + utf8Len u)
    (hw : ∀ c ∈ w, Text.isBlank c = true) :
    Cuts offset (u ++ (w ++ v)) (s.moved (offset + utf8Len u) (utf8Len w)) := by
  induction h generalizing u with
  | done =>
    obtain ⟨rfl, rfl⟩ := List.append_eq_nil_iff.1 hcs.symm
    exact Cuts.done.insert_front hw
  | @blank offset c cs s hb hrest ih =>
    cases u with
    | nil =>
      obtain rfl : c :: cs = v := hcs
      exact (Cuts.blank hb hrest).insert_front hw
    | cons d u =>
      obtain ⟨rfl, rfl⟩ := List.cons.inj hcs
      rw [add_utf8Len_cons] at hplace ⊢
      exact .blank hb (ih rfl hstop fun l hl stop hends => hplace l hl stop hends.behind_cons)
  | @lexeme offset t run rest s hs hclosed hrest ih =>
    cases u with
    | nil =>
      obtain rfl : run ++ rest = v := hcs
      exact (Cuts.lexeme hs hclosed hrest).insert_front hw
    | cons d u =>
      have hends : Lexeme.EndsAt ⟨t, offset⟩ offset (run ++ rest) (offset + utf8Len run) :=
        ⟨[], run, rest, rfl, hs, hclosed, rfl, rfl⟩
      have hpos := d.utf8Size_pos
      have hu : utf8Len (d :: u) = utf8Len u + d.utf8Size := rfl
      -- so the place is no less than the end of this lexeme
      have hle : utf8Len run ≤ utf8Len (d :: u) := by
        have := hplace _ List.mem_cons_self _ hends
        dsimp only at this
        omega
      obtain ⟨u', hu', rfl⟩ := exists_between hcs hle
      have hlen : offset + utf8Len (d :: u) = offset + utf8Len run + utf8Len u' := by
        rw [hu', String.utf8Len_append, Nat.add_assoc]
      have hinsert := ih rfl hstop fun l hl stop hends => by
        have := hplace l (List.mem_cons_of_mem _ hl) stop hends.behind
        omega
      have hcut := Cuts.lexeme hs (hclosed.insert hw) hinsert
      rw [← List.append_assoc, ← hu', ← hlen] at hcut
      have hfirst : Query.moved (offset + utf8Len (d :: u)) (utf8Len w) offset = offset :=
        moved_of_lt (by omega)
      unfold Scan.moved Lexeme.moved
      rw [List.map_cons, hfirst]
      exact hcut
  | refused => cases hstop

end

/-! ## Lemmas: runs alike -/

section

variable {R : Nat → Nat → Prop} {α : Type} {x y : Except SyntaxError α}

theorem OutcomeAlike.message_eq (h : OutcomeAlike R Eq x y) :
    x.mapError SyntaxError.message = y.mapError SyntaxError.message := by
  cases h with
  | ok h => rw [h]
  | error h => obtain ⟨-⟩ := h; rfl

theorem OutcomeAlike.eq_mapError {f : Nat → Nat} (h : OutcomeAlike (fun i j => j = f i) Eq x y) :
    y = x.mapError fun e => { e with position := f e.position } := by
  cases h with
  | ok h => rw [← h]; rfl
  | error h => obtain ⟨rfl⟩ := h; rfl

theorem SameTokens.alike {a b : String} (h : SameTokens a b) :
    (scan a).Alike (fun _ _ => True) (scan b) := by
  constructor
  · have : List.Forall₂ Eq ((scan a).lexemes.map Lexeme.token)
        ((scan b).lexemes.map Lexeme.token) := by
      rw [h.tokens, List.forall₂_eq_eq_eq]
    rw [List.forall₂_map_left_iff, List.forall₂_map_right_iff] at this
    refine this.imp ?_
    rintro ⟨token, i⟩ ⟨_, j⟩ rfl
    exact .intro trivial
  · have := h.fault
    cases ha : (scan a).stop <;> cases hb : (scan b).stop <;> rw [ha, hb] at this
    · exact .none
    · cases this
    · cases this
    · next d e =>
      obtain ⟨cause, i⟩ := d
      obtain ⟨_, j⟩ := e
      cases this
      exact .some (.intro trivial)

theorem Scan.alike_moved (s : Scan) (place gap : Nat) :
    s.Alike (fun i j => j = Query.moved place gap i) (s.moved place gap) := by
  constructor
  · exact List.forall₂_map_right_iff.2 (List.forall₂_same.2 fun _ _ => .intro rfl)
  · unfold Scan.moved
    cases s.stop with
    | none => exact .none
    | some e => exact .some (.intro rfl)

theorem Scan.parse_moved (s : Scan) {place gap stop stop' : Nat}
    (hstop : stop' = Query.moved place gap stop) :
    (s.moved place gap).parse stop' = (s.parse stop).mapError (SyntaxError.moved place gap) :=
  (parse_alike (s.alike_moved place gap) hstop).eq_mapError

end

theorem scan_insert {u v w : String} (hstop : (scan (u ++ v)).stop = none)
    (hplace : ¬ CutsLexeme (u ++ v) u.utf8ByteSize) (hw : ∀ c ∈ w.toList, Text.isBlank c = true) :
    scan (u ++ w ++ v) = (scan (u ++ v)).moved u.utf8ByteSize w.utf8ByteSize := by
  have houtside : ∀ l ∈ (scan (u ++ v)).lexemes, ∀ stop, l.EndsAt 0 (u ++ v).toList stop →
      0 + utf8Len u.toList ≤ l.offset ∨ stop ≤ 0 + utf8Len u.toList := by
    intro l hl stop hends
    by_contra hin
    rw [Nat.zero_add, String.utf8Len_toList] at hin
    exact hplace ⟨l, hl, stop, hends, by omega, by omega⟩
  have hinsert := (cuts_scan (u ++ v)).insert String.toList_append hstop houtside hw
  rw [Nat.zero_add, String.utf8Len_toList, String.utf8Len_toList] at hinsert
  apply scanFrom_eq_iff.2
  rwa [String.toList_append, String.toList_append, List.append_assoc]

/-! ## Top theorem -/

/-- **Tokens alone decide what a text is read as**, the tree or the message of the error.  Blanks
put in at a place that is not strictly inside a lexeme leave the tokens as they are, and move on by
their bytes what stands there or behind it. -/
theorem parse_by_tokens :
    (∀ a b : String, SameTokens a b →
      (parse a).mapError SyntaxError.message = (parse b).mapError SyntaxError.message) ∧
    (∀ u v w : String, (scan (u ++ v)).stop = none → ¬ CutsLexeme (u ++ v) u.utf8ByteSize →
      (∀ c ∈ w.toList, Text.isBlank c = true) →
        scan (u ++ w ++ v) = (scan (u ++ v)).moved u.utf8ByteSize w.utf8ByteSize ∧
        parse (u ++ w ++ v) =
          (parse (u ++ v)).mapError (SyntaxError.moved u.utf8ByteSize w.utf8ByteSize)) := by
  refine ⟨fun a b h => (parse_alike h.alike trivial).message_eq, ?_⟩
  intro u v w hstop hplace hw
  have hscan := scan_insert hstop hplace hw
  have hend : (u ++ w ++ v).utf8ByteSize =
      Query.moved u.utf8ByteSize w.utf8ByteSize (u ++ v).utf8ByteSize := by
    rw [String.utf8ByteSize_append, String.utf8ByteSize_append, String.utf8ByteSize_append,
      moved_of_le (by omega)]
    omega
  refine ⟨hscan, ?_⟩
  unfold parse
  rw [hscan, Scan.parse_moved _ hend]

/-- The end of a word is not inside it, and a blank of three bytes put in there moves the operator
and the end of the text, where the value is missing. -/
theorem parse_by_tokens_word_end :
    (SameTokens "rating>=3" "rating >= 3" ∧
      (parse "rating>=3").mapError SyntaxError.message =
        (parse "rating >= 3").mapError SyntaxError.message) ∧
    ((scan ("rating" ++ ">=")).stop = none ∧ ¬ CutsLexeme ("rating" ++ ">=") 6 ∧
      (∀ c ∈ "\u2003".toList, Text.isBlank c = true) ∧
      scan ("rating" ++ "\u2003" ++ ">=") = ⟨[⟨.word "rating", 0⟩, ⟨.op .gte, 9⟩], none⟩ ∧
      parse ("rating" ++ "\u2003" ++ ">=") = .error ⟨.missingValue .gte, 11⟩) := by
  have hsame : SameTokens "rating>=3" "rating >= 3" := ⟨by decide, by decide⟩
  have hscan : scan ("rating" ++ ">=") = ⟨[⟨.word "rating", 0⟩, ⟨.op .gte, 6⟩], none⟩ := by decide
  have hparse : parse ("rating" ++ ">=") = .error ⟨.missingValue .gte, 8⟩ := by decide
  have hplace : ¬ CutsLexeme ("rating" ++ ">=") 6 := by
    rintro ⟨l, hl, stop, ⟨before, run, rest, -, hs, -, -, rfl⟩, hlt, hgt⟩
    rw [hscan] at hl
    rcases List.mem_pair.1 hl with rfl | rfl
    · obtain ⟨rfl, -⟩ := hs
      revert hgt
      decide
    · exact absurd hlt (Nat.lt_irrefl _)
  have hblank : ∀ c ∈ "\u2003".toList, Text.isBlank c = true := List.all_eq_true.1 (by decide)
  have hstop : (scan ("rating" ++ ">=")).stop = none := by rw [hscan]
  obtain ⟨hmoved, hfault⟩ := parse_by_tokens.2 "rating" ">=" "\u2003" hstop hplace hblank
  refine ⟨⟨hsame, parse_by_tokens.1 _ _ hsame⟩, hstop, hplace, hblank, ?_, ?_⟩
  · rw [hmoved, hscan]
    rfl
  · rw [hfault, hparse]
    rfl

end PictureSearch.Query

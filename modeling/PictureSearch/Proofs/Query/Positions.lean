import Mathlib.Data.List.Induction
import PictureSearch.Proofs.Query.Lockstep
import PictureSearch.Proofs.Query.Munch
import PictureSearch.Proofs.Query.Pending
import PictureSearch.Proofs.Query.Running

/-!
# Where errors stand

A text that is no query is refused at a character of it that is no blank, or at its end; at its end
just where it breaks off in the middle of a comparison and nothing is wrong before.

    parse text = .error e → StandsIn 0 text.toList e.position ∨ e.position = text.utf8ByteSize
    (∃ e, parse text = .error e ∧ e.position = text.utf8ByteSize ∧ e.message = message) ↔
      BreaksOff text message
                                                                            (parse_error_position)

Every lexeme, and what stops the lexer, stands at such a character (`Cuts.standsIn`); the parser
names no other places, which is read off a run in step with itself (`run_alike`), until it asks at
the end of the text whether a comparison is half written.
-/

namespace PictureSearch.Query

open String (utf8Len)

/-! ## Statements -/

/-- Byte `n` is the first of a character that is no blank, where `cs` stand from byte `offset`
on. -/
def StandsIn (offset : Nat) (cs : List Char) (n : Nat) : Prop :=
  ∃ before c after, cs = before ++ c :: after ∧ Text.isBlank c = false ∧
    n = offset + utf8Len before

/-- The tokens start a comparison and do not complete it; and the message that says what is
missing. -/
inductive HalfWritten : List Token → String → Prop
  | operand {t : Token} {w : Operand} : t.operand? = some w → HalfWritten [t] "missing operator"
  | operator {attr : String} {o : Operator} : o ≠ .has →
      HalfWritten [.word attr, .op o] ("missing value after '" ++ o.symbol ++ "'")
  | membership {t : Token} {w : Operand} : t.operand? = some w →
      HalfWritten [t, .op .has] "missing attribute after '@'"

/-- The text ends in a half-written comparison, and is read up to its end without an error. -/
def BreaksOff (text message : String) : Prop :=
  (scan text).stop = none ∧ ∃ before half p q,
    (scan text).lexemes = before ++ half ∧ before.foldlM Parser.feed .initial = .ok p ∧
      p.pending = .nothing ∧ half.foldlM Parser.feed p = .ok q ∧
        HalfWritten (half.map Lexeme.token) message

/-! ## Lemmas: where lexemes stand -/

section

variable {offset n : Nat} {c : Char} {cs rest : List Char} {s : Scan} {t : Token}

theorem StandsIn.head (hc : Text.isBlank c = false) : StandsIn offset (c :: cs) offset :=
  ⟨[], c, cs, rfl, hc, rfl⟩

theorem StandsIn.behind {front : List Char} (h : StandsIn (offset + utf8Len front) cs n) :
    StandsIn offset (front ++ cs) n := by
  obtain ⟨before, c, after, rfl, hc, rfl⟩ := h
  exact ⟨front ++ before, c, after, by simp, hc, by rw [String.utf8Len_append, Nat.add_assoc]⟩

theorem StandsIn.behind_cons (h : StandsIn (offset + c.utf8Size) cs n) :
    StandsIn offset (c :: cs) n := by
  have hlen : c.utf8Size = utf8Len [c] := (Nat.zero_add _).symm
  rw [hlen] at h
  exact h.behind

theorem StandsIn.lt (h : StandsIn offset cs n) : n < offset + utf8Len cs := by
  obtain ⟨before, c, after, rfl, -, rfl⟩ := h
  have := c.utf8Size_pos
  rw [String.utf8Len_append, String.utf8Len_cons]
  omega

theorem not_isBlank_of_isAlphanumeric (h : Text.isAlphanumeric c = true) :
    Text.isBlank c = false := by
  rw [← Bool.not_eq_true]
  intro hb
  rw [Text.not_isAlphanumeric_of_isBlank hb] at h
  cases h

theorem not_isBlank_of_isQuote (h : isQuote c = true) : Text.isBlank c = false := by
  rcases isQuote_iff.1 h with rfl | rfl <;> decide

theorem Token.SpelledBy.standsIn (h : t.SpelledBy cs) (rest : List Char) :
    StandsIn offset (cs ++ rest) offset := by
  cases t with
  | word w =>
    obtain ⟨rfl, hw⟩ := h
    obtain ⟨c, cs, hl, hc, -⟩ := isBareWord_iff.1 hw
    rw [hl]
    exact .head (not_isBlank_of_isWordStart hc)
  | integer n =>
    obtain ⟨hne, hdigits, -⟩ := h
    obtain ⟨c, cs, rfl⟩ := List.exists_cons_of_ne_nil hne
    exact .head (Text.not_isBlank_of_isDigit (hdigits c List.mem_cons_self))
  | quoted s =>
    obtain ⟨quote, hquote, -, rfl⟩ := h
    exact .head (not_isBlank_of_isQuote hquote)
  | op o =>
    obtain rfl := h
    cases o <;> exact .head rfl
  | leftParen | rightParen | and | or | not =>
    obtain rfl := h
    exact .head rfl

theorem Refused.standsIn {cause : SyntaxError.Cause} (h : Refused cs cause n) :
    StandsIn offset cs (offset + n) := by
  cases h with
  | @integerOutOfRange digits rest hdigits _ hb =>
    cases digits with
    | nil => cases hb
    | cons d digits => exact .head (Text.not_isBlank_of_isDigit (hdigits d List.mem_cons_self))
  | letterInInteger _ _ _ _ hc =>
    refine .behind (.head ?_)
    rcases hc with hc | rfl
    · exact not_isBlank_of_isAlphanumeric hc
    · rfl
  | wildcardInInteger => exact .behind (.head rfl)
  | quoteInInteger _ _ _ hquote => exact .behind (.head (not_isBlank_of_isQuote hquote))
  | quoteInWord _ hquote => exact .behind (.head (not_isBlank_of_isQuote hquote))
  | unclosedQuote hquote => exact .head (not_isBlank_of_isQuote hquote)
  | unexpectedCharacter hb => exact .head hb

/-- The lexer marks characters that are no blanks, whether it takes them or not. -/
theorem Cuts.standsIn (h : Cuts offset cs s) :
    (∀ l ∈ s.lexemes, StandsIn offset cs l.offset) ∧
      ∀ e ∈ s.stop, StandsIn offset cs e.position := by
  induction h with
  | done => exact ⟨fun _ h => (nomatch h), fun _ h => (nomatch h)⟩
  | @blank offset c cs s _ _ ih =>
    exact ⟨fun l hl => (ih.1 l hl).behind_cons, fun e he => (ih.2 e he).behind_cons⟩
  | @lexeme offset t cs rest s hs _ _ ih =>
    refine ⟨List.forall_mem_cons.2 ⟨hs.standsIn rest, ?_⟩, fun e he => (ih.2 e he).behind⟩
    exact fun l hl => (ih.1 l hl).behind
  | refused h =>
    refine ⟨fun _ h => (nomatch h), ?_⟩
    rintro _ ⟨⟩
    exact h.standsIn

end

/-! ## Lemmas: what half-written comparisons are -/

/-- The lexemes that are pending, all taken from between two clauses on. -/
inductive Pending.Spans : Pending → List Lexeme → Prop
  | nothing : Spans .nothing []
  | leading {l : Lexeme} {w : Operand} : l.token.operand? = some w →
      Spans (.leading w l.offset) [l]
  | operator {attr : String} {o : Operator} {i j : Nat} : o ≠ .has →
      Spans (.operator attr o) [⟨.word attr, i⟩, ⟨.op o, j⟩]
  | has {l : Lexeme} {w : Operand} {j : Nat} : l.token.operand? = some w →
      Spans (.has w.toLiteral) [l, ⟨.op .has, j⟩]

section

variable {a : Pending} {half : List Lexeme}

theorem Pending.Spans.foldl (h : a.Spans half) : half.foldl Pending.next .nothing = a := by
  cases h with
  | nothing => rfl
  | leading hl => exact next_operand hl
  | @operator attr o i j ho => exact @next_operator ⟨.op o, j⟩ o rfl ho attr i
  | @has l w j hl =>
    rw [List.foldl_cons, next_operand hl]
    exact @next_has ⟨.op .has, j⟩ rfl w l.offset

/-- The lexeme is pending with those before it, if any, or else nothing is. -/
theorem Pending.Spans.next (h : a.Spans half) (l : Lexeme) :
    (a.next l).Spans (half ++ [l]) ∨ a.next l = .nothing := by
  cases h with
  | nothing =>
    cases hl : l.token.operand? with
    | some w =>
      rw [next_operand hl]
      exact .inl (.leading hl)
    | none => exact .inr (next_nothing hl)
  | @leading first w hfirst =>
    obtain ⟨t, j⟩ := l
    cases t with
    | op o =>
      by_cases ho : o = .has
      · rw [ho, next_has rfl]
        exact .inl (.has hfirst)
      · cases w with
        | literal =>
          right
          cases o with
          | has => exact absurd rfl ho
          | _ => rfl
        | word attr =>
          obtain ⟨t, i⟩ := first
          obtain rfl := Parser.operand?_eq_word hfirst
          rw [next_operator rfl ho]
          exact .inl (.operator ho)
    | _ =>
      right
      cases w <;> rfl
  | operator => exact .inr rfl
  | has => exact .inr rfl

theorem Pending.exists_spans (ls : List Lexeme) :
    ∃ before half, ls = before ++ half ∧ before.foldl Pending.next .nothing = .nothing ∧
      (ls.foldl Pending.next .nothing).Spans half := by
  induction ls using List.reverseRecOn with
  | nil => exact ⟨[], [], rfl, rfl, .nothing⟩
  | append_singleton ls l ih =>
    obtain ⟨before, half, hls, hbefore, hspans⟩ := ih
    rcases hspans.next l with hmore | hnothing
    · refine ⟨before, half ++ [l], by rw [hls, List.append_assoc], hbefore, ?_⟩
      simpa using hmore
    · refine ⟨ls ++ [l], [], (List.append_nil _).symm, by simpa using hnothing, ?_⟩
      simpa [hnothing] using Spans.nothing

/-- What is wrong at the end of a text is said by the lexemes that are pending. -/
theorem Pending.Spans.halfWritten {p : Parser} {stop : Nat} {e : SyntaxError}
    (h : p.pending.Spans half) (he : p.ensureIdle stop = .error e) :
    e.position = stop ∧ HalfWritten (half.map Lexeme.token) e.message := by
  obtain ⟨root, stack, pending, awaiting⟩ := p
  cases h with
  | nothing => cases he
  | leading hl =>
    cases he
    exact ⟨rfl, .operand hl⟩
  | operator ho =>
    cases he
    exact ⟨rfl, .operator ho⟩
  | has hl =>
    cases he
    exact ⟨rfl, .membership hl⟩

theorem HalfWritten.exists_spans {message : String}
    (h : HalfWritten (half.map Lexeme.token) message) :
    ∃ a : Pending, a.Spans half ∧ ∀ p : Parser, p.pending = a → ∀ stop, ∃ e,
      p.ensureIdle stop = .error e ∧ e.position = stop ∧ e.message = message := by
  generalize hts : half.map Lexeme.token = ts at h
  cases h with
  | operand ht =>
    obtain ⟨i, rest, rfl, hnil⟩ := Parser.exists_lexeme hts
    obtain rfl := List.map_eq_nil_iff.1 hnil
    refine ⟨_, .leading ht, ?_⟩
    rintro ⟨root, stack, _, awaiting⟩ rfl stop
    exact ⟨_, rfl, rfl, rfl⟩
  | operator ho =>
    obtain ⟨i, rest, rfl, hrest⟩ := Parser.exists_lexeme hts
    obtain ⟨j, rest, rfl, hnil⟩ := Parser.exists_lexeme hrest
    obtain rfl := List.map_eq_nil_iff.1 hnil
    refine ⟨_, .operator ho, ?_⟩
    rintro ⟨root, stack, _, awaiting⟩ rfl stop
    exact ⟨_, rfl, rfl, rfl⟩
  | membership ht =>
    obtain ⟨i, rest, rfl, hrest⟩ := Parser.exists_lexeme hts
    obtain ⟨j, rest, rfl, hnil⟩ := Parser.exists_lexeme hrest
    obtain rfl := List.map_eq_nil_iff.1 hnil
    refine ⟨_, .has ht, ?_⟩
    rintro ⟨root, stack, _, awaiting⟩ rfl stop
    exact ⟨_, rfl, rfl, rfl⟩

end

/-! ## Lemmas: where the parser notices errors -/

/-- A byte of the text, seen twice. -/
def AtText (text : String) (i j : Nat) : Prop := i = j ∧ StandsIn 0 text.toList i

section

variable {text : String} {e : SyntaxError}

theorem standsIn_scan (text : String) :
    (∀ l ∈ (scan text).lexemes, StandsIn 0 text.toList l.offset) ∧
      ∀ e ∈ (scan text).stop, StandsIn 0 text.toList e.position :=
  (cuts_scan text).standsIn

theorem lexemes_alike (text : String) :
    List.Forall₂ (Lexeme.Alike (AtText text)) (scan text).lexemes (scan text).lexemes :=
  List.forall₂_same.2 fun l hl => .intro ⟨rfl, (standsIn_scan text).1 l hl⟩

theorem StandsIn.lt_utf8ByteSize {n : Nat} (h : StandsIn 0 text.toList n) :
    n < text.utf8ByteSize := by
  have := h.lt
  rwa [Nat.zero_add, String.utf8Len_toList] at this

/-- At the end of the text either a comparison is half written or a frame is named. -/
theorem Parser.finish_eq_error {p : Parser} {stop : Nat} (h : p.finish stop = .error e) :
    p.ensureIdle stop = .error e ∨ ∃ f ∈ p.stack, e.position = f.offset := by
  rcases bind_eq_error_iff.1 h with hidle | ⟨_, -, h⟩
  · exact .inl hidle
  · right
    obtain ⟨root, stack, pending, awaiting⟩ := p
    cases stack with
    | nil => cases h
    | cons f rest =>
      refine ⟨f, List.mem_cons_self, ?_⟩
      dsimp only at h
      split at h
      · cases h; rfl
      · split at h <;> cases h <;> rfl

/-- An error that is found before the end of the text stands at a character of it. -/
theorem standsIn_of_error (h : parse text = .error e) :
    StandsIn 0 text.toList e.position ∨
      (scan text).stop = none ∧ ∃ q, (scan text).lexemes.foldlM Parser.feed .initial = .ok q ∧
        q.ensureIdle text.utf8ByteSize = .error e := by
  have hrun := Parser.run_alike Parser.alike_initial (lexemes_alike text)
  rcases bind_eq_error_iff.1 h with herror | ⟨q, hq, hend⟩
  · rw [herror] at hrun
    cases hrun with
    | error he =>
      obtain @⟨_, _, _, -, hstands⟩ := he
      exact .inl hstands
  · rw [hq] at hrun
    cases hs : (scan text).stop with
    | some d =>
      rw [hs] at hend
      cases hend
      exact .inl ((standsIn_scan text).2 _ hs)
    | none =>
      rw [hs] at hend
      rcases Parser.finish_eq_error hend with hidle | ⟨f, hf, hposition⟩
      · exact .inr ⟨rfl, _, hq, hidle⟩
      · left
        cases hrun with
        | ok hself =>
          obtain ⟨hstack, -⟩ := hself
          have hframe := List.forall₂_same.1 hstack f hf
          obtain @⟨_, _, _, _, _, -, hstands⟩ := hframe
          rw [hposition]
          exact hstands

theorem breaksOff_of_pending {q : Parser} (hstop : (scan text).stop = none)
    (hrun : (scan text).lexemes.foldlM Parser.feed .initial = .ok q) {stop : Nat}
    (hidle : q.ensureIdle stop = .error e) : e.position = stop ∧ BreaksOff text e.message := by
  obtain ⟨before, half, hls, hbefore, hspans⟩ := Pending.exists_spans (scan text).lexemes
  have hpending : q.pending = (scan text).lexemes.foldl Pending.next .nothing :=
    (Parser.pending_of_run Parser.steady_initial hrun).2
  rw [← hpending] at hspans
  obtain ⟨hposition, hhalf⟩ := hspans.halfWritten hidle
  rw [hls, List.foldlM_append] at hrun
  obtain ⟨p, hp, hq⟩ := bind_eq_ok_iff.1 hrun
  refine ⟨hposition, hstop, before, half, p, q, hls, hp, ?_, hq, hhalf⟩
  exact (Parser.pending_of_run Parser.steady_initial hp).2.trans hbefore

theorem error_of_breaksOff {message : String} (h : BreaksOff text message) :
    ∃ e, parse text = .error e ∧ e.position = text.utf8ByteSize ∧ e.message = message := by
  obtain ⟨hstop, before, half, p, q, hls, hp, hnothing, hq, hhalf⟩ := h
  obtain ⟨a, hspans, hfault⟩ := hhalf.exists_spans
  have hsteady := (Parser.pending_of_run Parser.steady_initial hp).1
  have hpending := (Parser.pending_of_run hsteady hq).2
  rw [hnothing, hspans.foldl] at hpending
  obtain ⟨e, he, hposition, hmessage⟩ := hfault q hpending text.utf8ByteSize
  have hrun : (scan text).lexemes.foldlM Parser.feed .initial = .ok q := by
    rw [hls, List.foldlM_append, hp]
    exact hq
  refine ⟨e, ?_, hposition, hmessage⟩
  unfold parse Scan.parse
  rw [hrun, hstop]
  show q.finish text.utf8ByteSize = _
  exact bind_eq_error_iff.2 (.inl he)

end

/-! ## Top theorem -/

/-- **Errors stand at a character of the text that is no blank, or at its end**, and at the end just
where the text breaks off in a comparison, with the message that says what is missing there. -/
theorem parse_error_position (text : String) :
    (∀ e, parse text = .error e →
      (StandsIn 0 text.toList e.position ∧ e.position < text.utf8ByteSize) ∨
        e.position = text.utf8ByteSize) ∧
    (∀ message, (∃ e, parse text = .error e ∧ e.position = text.utf8ByteSize ∧
      e.message = message) ↔ BreaksOff text message) := by
  constructor
  · intro e h
    rcases standsIn_of_error h with hstands | ⟨hstop, q, hrun, hidle⟩
    · exact .inl ⟨hstands, hstands.lt_utf8ByteSize⟩
    · exact .inr (breaksOff_of_pending hstop hrun hidle).1
  · intro message
    constructor
    · rintro ⟨e, h, hposition, rfl⟩
      rcases standsIn_of_error h with hstands | ⟨hstop, q, hrun, hidle⟩
      · exact absurd hposition (Nat.ne_of_lt hstands.lt_utf8ByteSize)
      · exact (breaksOff_of_pending hstop hrun hidle).2
    · exact error_of_breaksOff

/-- Bytes are counted, not characters, on the way to a character and on the way to the end. -/
theorem parse_error_position_multibyte :
    parse "größe # 3" = .error ⟨.unexpectedCharacter '#', 8⟩ ∧
      StandsIn 0 "größe # 3".toList 8 ∧
        parse "(größe>=" = .error ⟨.missingValue .gte, 10⟩ ∧
          BreaksOff "(größe>=" "missing value after '>='" := by
  have hinside : parse "größe # 3" = .error ⟨.unexpectedCharacter '#', 8⟩ := by decide
  have hend : parse "(größe>=" = .error ⟨.missingValue .gte, 10⟩ := by decide
  refine ⟨hinside, ?_, hend, ((parse_error_position _).2 _).1 ⟨_, hend, by decide, by decide⟩⟩
  rcases (parse_error_position _).1 _ hinside with hstands | hlength
  · exact hstands.1
  · exact absurd hlength (by decide)

end PictureSearch.Query

import PictureSearch.Proofs.Query.Blanks
import PictureSearch.Proofs.Query.Canonical
import PictureSearch.Proofs.Query.Nesting

/-!
# Texts put together

Two queries with blanks between them are one query with the clauses of both; a query in parentheses
is a group of its clauses, as long as there is room for one more group around it.

    parse u = .ok ⟨.and, cu⟩ → parse v = .ok ⟨.and, cv⟩ → w ≠ "" → blanks w →
      parse (u ++ w ++ v) = .ok ⟨.and, cu ++ cv⟩
    parse u = .ok ⟨.and, cu⟩ → Parser.initial.peak (scan u).lexemes ≤ 127 →
      parse (opening.around u) =
        (Frame.toNode ⟨opening, cu, 0, true⟩).map fun n => ⟨.and, [n]⟩              (parse_around)
                                                                                  (parse_composes)

Side by side the derivations are appended.  In parentheses the run of the text is followed inside
the group (`Parser.run_inside`), which also says what is wrong with a negation of no clause or of
several.
-/

namespace PictureSearch.Query

open String (utf8Len)

/-! ## Statements -/

/-- What opens a group, as it is written. -/
def Opening.text : Opening → String
  | .bare => "("
  | .and => "&("
  | .or => "|("
  | .not => "!("

/-- The text as the clauses of a group. -/
def Opening.around (opening : Opening) (text : String) : String := opening.text ++ text ++ ")"

/-- The lexemes of what opens a group, at the start of a text. -/
def Opening.lexemes : Opening → List Lexeme
  | .bare => [⟨.leftParen, 0⟩]
  | .and => [⟨.and, 0⟩, ⟨.leftParen, 1⟩]
  | .or => [⟨.or, 0⟩, ⟨.leftParen, 1⟩]
  | .not => [⟨.not, 0⟩, ⟨.leftParen, 1⟩]

/-! ## Lemmas: scans put together -/

section

variable {offset : Nat} {u v rest : List Char} {s s' : Scan}

/-- Where what follows ends every lexeme, the lexemes of a text stay what they are before it. -/
theorem Cuts.append (h : Cuts offset u s) (hstop : s.stop = none)
    (hclosed : ∀ t : Token, t.ClosedBy v) (h' : Cuts (offset + utf8Len u) v s') :
    Cuts offset (u ++ v) ⟨s.lexemes ++ s'.lexemes, s'.stop⟩ := by
  induction h with
  | done => exact h'
  | @blank offset c cs s hb _ ih =>
    rw [add_utf8Len_cons] at h'
    exact .blank hb (ih hstop h')
  | @lexeme offset t run rest s hs ht _ ih =>
    rw [String.utf8Len_append, ← Nat.add_assoc] at h'
    rw [List.append_assoc]
    have htv : t.ClosedBy (rest ++ v) := by
      cases rest with
      | nil => exact hclosed t
      | cons c rest => exact ht.of_cons _
    exact .lexeme hs htv (ih hstop h')
  | refused => cases hstop

theorem Cuts.opening (opening : Opening) (h : Cuts (utf8Len opening.text.toList) u s) :
    Cuts 0 (opening.text.toList ++ u) ⟨opening.lexemes ++ s.lexemes, s.stop⟩ := by
  cases opening with
  | bare => exact @Cuts.lexeme 0 .leftParen ['('] u s rfl trivial h
  | and =>
    exact @Cuts.lexeme 0 .and ['&'] _ _ rfl trivial
      (@Cuts.lexeme 1 .leftParen ['('] u s rfl trivial h)
  | or =>
    exact @Cuts.lexeme 0 .or ['|'] _ _ rfl trivial
      (@Cuts.lexeme 1 .leftParen ['('] u s rfl trivial h)
  | not =>
    exact @Cuts.lexeme 0 .not ['!'] _ _ rfl (by simp [Token.ClosedBy])
      (@Cuts.lexeme 1 .leftParen ['('] u s rfl trivial h)

end

section

variable {u v w : String}

theorem Scan.stop_moved {s : Scan} (h : s.stop = none) (place gap : Nat) :
    (s.moved place gap).stop = none := by
  rw [Scan.moved, h]
  rfl

theorem Scan.tokens_moved (s : Scan) (place gap : Nat) :
    (s.moved place gap).lexemes.map Lexeme.token = s.lexemes.map Lexeme.token := by
  unfold Scan.moved
  rw [List.map_map]
  rfl

/-- The lexemes of a text that stands behind so many bytes. -/
theorem cuts_behind (text : String) (offset : Nat) :
    Cuts offset text.toList ((scan text).moved 0 offset) := by
  have := (cuts_scan text).moved (Nat.zero_le _) offset
  rwa [Nat.zero_add] at this

theorem scan_beside (hu : (scan u).stop = none) (hne : w ≠ "")
    (hw : ∀ c ∈ w.toList, Text.isBlank c = true) :
    scan (u ++ w ++ v) =
      ⟨(scan u).lexemes ++ ((scan v).moved 0 (u.utf8ByteSize + w.utf8ByteSize)).lexemes,
        ((scan v).moved 0 (u.utf8ByteSize + w.utf8ByteSize)).stop⟩ := by
  have hclosed : ∀ t : Token, t.ClosedBy (w.toList ++ v.toList) := by
    intro t
    have hchars : w.toList ≠ [] := fun h => hne (String.toList_eq_nil_iff.1 h)
    obtain ⟨c, cs, hcs⟩ := List.exists_cons_of_ne_nil hchars
    rw [hcs] at hw ⊢
    exact Token.closedBy_of_isBlank (hw c List.mem_cons_self)
  have hbehind := cuts_behind v (u.utf8ByteSize + w.utf8ByteSize)
  apply scanFrom_eq_iff.2
  rw [String.toList_append, String.toList_append, List.append_assoc]
  refine (cuts_scan u).append hu hclosed (.blanks hw ?_)
  rwa [Nat.zero_add, String.utf8Len_toList, String.utf8Len_toList]

theorem scan_around (opening : Opening) (hu : (scan u).stop = none) :
    scan (opening.around u) =
      ⟨opening.lexemes ++ (((scan u).moved 0 opening.text.utf8ByteSize).lexemes ++
        [⟨.rightParen, opening.text.utf8ByteSize + u.utf8ByteSize⟩]), none⟩ := by
  have hclosed : ∀ t : Token, t.ClosedBy [')'] := fun t =>
    Token.closedBy_of_ends ⟨rfl, rfl⟩ (by decide)
  have hparen : ∀ offset, Cuts offset [')'] ⟨[⟨.rightParen, offset⟩], none⟩ := fun offset =>
    @Cuts.lexeme offset .rightParen [')'] [] _ rfl trivial .done
  rw [← String.utf8Len_toList opening.text, ← String.utf8Len_toList u]
  have hinner := (cuts_behind u (utf8Len opening.text.toList)).append (Scan.stop_moved hu _ _)
    hclosed (hparen _)
  apply scanFrom_eq_iff.2
  rw [Opening.around, String.toList_append, String.toList_append, List.append_assoc]
  exact hinner.opening

end

/-! ## Lemmas: side by side -/

theorem Clauses.append {room : Nat} {ts us : List Token} {ns ms : List Node}
    (h : Clauses room ts ns) (h' : Clauses room us ms) : Clauses room (ts ++ us) (ns ++ ms) := by
  induction ns generalizing ts with
  | nil =>
    cases h
    exact h'
  | cons n ns ih =>
    cases h with
    | cons hn hs =>
      rw [List.append_assoc]
      exact .cons hn (ih hs)

section

variable {u v w : String} {cu cv : List Node}

theorem derives_of_parse (h : parse u = .ok ⟨.and, cu⟩) :
    Clauses maxDepth ((scan u).lexemes.map Lexeme.token) cu := by
  have hscan : scan u = ⟨(scan u).lexemes, none⟩ := by rw [← scan_of_parse h]
  unfold parse at h
  rw [hscan] at h
  obtain ⟨ns, hns, ⟨⟩⟩ := clauses_of_parse h
  exact hns

theorem parse_beside (hu : parse u = .ok ⟨.and, cu⟩) (hv : parse v = .ok ⟨.and, cv⟩) (hne : w ≠ "")
    (hw : ∀ c ∈ w.toList, Text.isBlank c = true) :
    parse (u ++ w ++ v) = .ok ⟨.and, cu ++ cv⟩ := by
  unfold parse
  rw [scan_beside (scan_of_parse hu) hne hw, Scan.stop_moved (scan_of_parse hv)]
  apply parse_of_clauses
  rw [List.map_append, Scan.tokens_moved]
  exact (derives_of_parse hu).append (derives_of_parse hv)

/-! ## Lemmas: in parentheses -/

/-- The run of a text that is read, wherever the text stands. -/
theorem run_of_parse (h : parse u = .ok ⟨.and, cu⟩) (gap : Nat) :
    ((scan u).moved 0 gap).lexemes.foldlM Parser.feed .initial = .ok (.settled cu []) := by
  have hstop := scan_of_parse h
  have hmoved := Scan.parse_moved (scan u) (rfl : Query.moved 0 gap u.utf8ByteSize = _)
  rw [show (scan u).parse u.utf8ByteSize = _ from h] at hmoved
  obtain ⟨p, hrun, hend⟩ := bind_eq_ok_iff.1 hmoved
  rw [Scan.stop_moved hstop] at hend
  have hsteady := (Parser.pending_of_run Parser.steady_initial hrun).1
  rw [hrun, Parser.eq_settled_of_finish hsteady hend]

theorem peak_moved (s : Scan) (place gap : Nat) :
    Parser.initial.peak (s.moved place gap).lexemes = Parser.initial.peak s.lexemes :=
  (Parser.peak_alike Parser.alike_initial (s.alike_moved place gap).lexemes).symm

theorem run_opening_lexemes (opening : Opening) :
    opening.lexemes.foldlM Parser.feed .initial = .ok (.settled [] [⟨opening, [], 0, true⟩]) := by
  cases opening <;> rfl

/-- The last parenthesis makes the node of the group, unless something is wrong with it. -/
theorem run_rightParen {f : Frame} (hf : f.parenthesized = true) (offset : Nat) :
    [⟨.rightParen, offset⟩].foldlM Parser.feed (.settled [] [f]) =
      f.toNode.map fun n => Parser.settled [n] [] := by
  cases hn : f.toNode with
  | ok n =>
    show Parser.feed (.settled [] [f]) ⟨.rightParen, offset⟩ >>= pure = _
    rw [Parser.feed_rightParen hf hn]
    rfl
  | error e =>
    have hclose : Parser.close (.settled [] [f]) offset = .error e := by
      unfold Parser.close
      dsimp only
      rw [if_pos hf, hn]
      rfl
    show Parser.close (.settled [] [f]) offset >>= pure = _
    rw [hclose]
    rfl

/-- A text in parentheses is the group of its clauses, or what is wrong with that group. -/
theorem parse_around (h : parse u = .ok ⟨.and, cu⟩)
    (hpeak : Parser.initial.peak (scan u).lexemes ≤ 127) (opening : Opening) :
    parse (opening.around u) =
      (Frame.toNode ⟨opening, cu, 0, true⟩).map fun n => ⟨.and, [n]⟩ := by
  have hroom :
      Parser.initial.peak ((scan u).moved 0 opening.text.utf8ByteSize).lexemes < maxDepth :=
    Nat.lt_succ_of_le ((peak_moved _ _ _).trans_le hpeak)
  have hinside : ((scan u).moved 0 opening.text.utf8ByteSize).lexemes.foldlM Parser.feed
      (.settled [] [⟨opening, [], 0, true⟩]) = .ok (.settled [] [⟨opening, cu, 0, true⟩]) :=
    @Parser.run_inside _ _ [] ⟨opening, [], 0, true⟩ rfl _ Parser.steady_initial hroom
      (run_of_parse h opening.text.utf8ByteSize)
  have hrun : (scan (opening.around u)).lexemes.foldlM Parser.feed .initial =
      (Frame.toNode ⟨opening, cu, 0, true⟩).map fun n => Parser.settled [n] [] := by
    rw [scan_around opening (scan_of_parse h), List.foldlM_append, run_opening_lexemes]
    show List.foldlM Parser.feed (.settled [] [⟨opening, [], 0, true⟩]) (_ ++ _) = _
    rw [List.foldlM_append, hinside]
    exact run_rightParen rfl _
  unfold parse Scan.parse
  rw [hrun, scan_around opening (scan_of_parse h)]
  cases Frame.toNode ⟨opening, cu, 0, true⟩ <;> rfl

end

/-! ## Top theorem -/

/-- **Parsing goes by the parts of a text.**  Side by side two queries are the clauses of both, and
in parentheses a query that leaves one group unopened is a group of its clauses; a negation wants
just one, and is refused at its sign with any other number. -/
theorem parse_composes :
    (∀ (u v w : String) (cu cv : List Node), parse u = .ok ⟨.and, cu⟩ → parse v = .ok ⟨.and, cv⟩ →
      w ≠ "" → (∀ c ∈ w.toList, Text.isBlank c = true) →
        parse (u ++ w ++ v) = .ok ⟨.and, cu ++ cv⟩) ∧
    (∀ (u : String) (cu : List Node), parse u = .ok ⟨.and, cu⟩ →
      Parser.initial.peak (scan u).lexemes ≤ 127 →
        parse ("&(" ++ u ++ ")") = .ok ⟨.and, [.group .and cu]⟩ ∧
        parse ("|(" ++ u ++ ")") = .ok ⟨.and, [.group .or cu]⟩ ∧
        parse ("(" ++ u ++ ")") = .ok ⟨.and, if cu.length = 1 then cu else [.group .and cu]⟩ ∧
        (cu.length = 1 → parse ("!(" ++ u ++ ")") = .ok ⟨.and, [.group .not cu]⟩) ∧
        (cu.length ≠ 1 → ∃ e, parse ("!(" ++ u ++ ")") = .error e ∧ e.position = 0)) := by
  refine ⟨fun u v w cu cv hu hv hne hw => parse_beside hu hv hne hw, ?_⟩
  intro u cu h hpeak
  have haround := parse_around h hpeak
  refine ⟨haround .and, haround .or, ?_, ?_, ?_⟩
  · refine (haround .bare).trans ?_
    rcases cu with _ | ⟨n, _ | _⟩ <;> rfl
  · intro hone
    obtain ⟨n, rfl⟩ := List.length_eq_one_iff.1 hone
    exact haround .not
  · intro hother
    rcases cu with _ | ⟨n, _ | ⟨m, ns⟩⟩
    · exact ⟨_, haround .not, rfl⟩
    · exact absurd rfl hother
    · exact ⟨_, haround .not, rfl⟩

/-- A negation without parentheses ends with its operand, so it is one clause for the negation
around it; beside another clause they are two. -/
theorem parse_composes_negation :
    parse "!b@c" = .ok ⟨.and, [.group .not [.compare ⟨"c", .has, .text "b"⟩]]⟩ ∧
      parse "x>2" = .ok ⟨.and, [.compare ⟨"x", .gt, .integer 2⟩]⟩ ∧
      parse ("!b@c" ++ "\u2003" ++ "x>2") =
        .ok ⟨.and, [.group .not [.compare ⟨"c", .has, .text "b"⟩],
          .compare ⟨"x", .gt, .integer 2⟩]⟩ ∧
      parse ("!(" ++ "!b@c" ++ ")") =
        .ok ⟨.and, [.group .not [.group .not [.compare ⟨"c", .has, .text "b"⟩]]]⟩ ∧
      ∃ e, parse ("!(" ++ ("!b@c" ++ "\u2003" ++ "x>2") ++ ")") = .error e ∧ e.position = 0 := by
  have hu : parse "!b@c" = .ok ⟨.and, [.group .not [.compare ⟨"c", .has, .text "b"⟩]]⟩ := by
    decide
  have hv : parse "x>2" = .ok ⟨.and, [.compare ⟨"x", .gt, .integer 2⟩]⟩ := by decide
  have hblank : ∀ c ∈ "\u2003".toList, Text.isBlank c = true := List.all_eq_true.1 (by decide)
  have hpeak : Parser.initial.peak (scan "!b@c").lexemes ≤ 127 := by decide
  have hpeak' : Parser.initial.peak (scan ("!b@c" ++ "\u2003" ++ "x>2")).lexemes ≤ 127 := by
    decide +kernel
  have hbeside := parse_composes.1 "!b@c" "x>2" "\u2003" _ _ hu hv (by decide) hblank
  have hinside := (parse_composes.2 "!b@c" _ hu hpeak).2.2.2.1 rfl
  have hseveral := (parse_composes.2 _ _ hbeside hpeak').2.2.2.2 (by decide)
  exact ⟨hu, hv, hbeside, hinside, hseveral⟩

end PictureSearch.Query

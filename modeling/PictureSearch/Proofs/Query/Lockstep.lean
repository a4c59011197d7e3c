import Mathlib.Data.List.Forall2
import PictureSearch.Query.Parser

/-!
# Two runs of the parser in step

The parser looks at tokens alone; offsets it only keeps, to name one of them when it fails.  So two
runs over the same tokens stay in step, whatever the offsets: if `R` relates the offsets of the two
texts lexeme by lexeme, then it relates all that is kept and, in the end, the positions of the
errors.

    p.Alike R q → l.Alike R m → OutcomeAlike R (Parser.Alike R) (p.feed l) (q.feed m)   (feed_alike)
    s.Alike R t → R stop stop' → OutcomeAlike R Eq (s.parse stop) (t.parse stop')      (parse_alike)

With a shift for `R` this says where an error moves.  With a relation that holds of some offsets and
themselves, one run is in step with itself, and what it says of errors is where they can stand.
-/

namespace PictureSearch.Query

/-! ## What is alike -/

section

variable (R : Nat → Nat → Prop)

inductive Lexeme.Alike : Lexeme → Lexeme → Prop
  | intro {token : Token} {i j : Nat} : R i j → Alike ⟨token, i⟩ ⟨token, j⟩

inductive SyntaxError.Alike : SyntaxError → SyntaxError → Prop
  | intro {cause : SyntaxError.Cause} {i j : Nat} : R i j → Alike ⟨cause, i⟩ ⟨cause, j⟩

/-- The same lexemes but for their offsets, and either no error or errors alike. -/
structure Scan.Alike (s t : Scan) : Prop where
  lexemes : List.Forall₂ (Lexeme.Alike R) s.lexemes t.lexemes
  stop : Option.Rel (SyntaxError.Alike R) s.stop t.stop

inductive Frame.Alike : Frame → Frame → Prop
  | intro {opening : Opening} {children : List Node} {i j : Nat} {parenthesized : Bool} :
      R i j → Alike ⟨opening, children, i, parenthesized⟩ ⟨opening, children, j, parenthesized⟩

inductive Pending.Alike : Pending → Pending → Prop
  | nothing : Alike .nothing .nothing
  | leading {w : Operand} {i j : Nat} : R i j → Alike (.leading w i) (.leading w j)
  | operator {attr : String} {o : Operator} : Alike (.operator attr o) (.operator attr o)
  | has {value : Literal} : Alike (.has value) (.has value)

inductive Parser.Alike : Parser → Parser → Prop
  | intro {root : List Node} {fs gs : List Frame} {a b : Pending} {awaitingParen : Bool} :
      List.Forall₂ (Frame.Alike R) fs gs → a.Alike R b →
        Alike ⟨root, fs, a, awaitingParen⟩ ⟨root, gs, b, awaitingParen⟩

/-- Either both outcomes are values that `S` relates, or both are errors alike. -/
inductive OutcomeAlike {α β : Type} (S : α → β → Prop) :
    Except SyntaxError α → Except SyntaxError β → Prop
  | ok {a : α} {b : β} : S a b → OutcomeAlike S (.ok a) (.ok b)
  | error {d e : SyntaxError} : d.Alike R e → OutcomeAlike S (.error d) (.error e)

end

/-! ## Lemmas: outcomes -/

section

variable {R : Nat → Nat → Prop} {α β γ δ : Type} {S : α → β → Prop} {T : γ → δ → Prop}

theorem OutcomeAlike.fails {cause : SyntaxError.Cause} {i j : Nat} (h : R i j) :
    OutcomeAlike R S (.error ⟨cause, i⟩) (.error ⟨cause, j⟩) := .error (.intro h)

theorem OutcomeAlike.bind {x : Except SyntaxError α} {y : Except SyntaxError β}
    {f : α → Except SyntaxError γ} {g : β → Except SyntaxError δ} (h : OutcomeAlike R S x y)
    (hfg : ∀ a b, S a b → OutcomeAlike R T (f a) (g b)) : OutcomeAlike R T (x >>= f) (y >>= g) := by
  cases h with
  | ok hab => exact hfg _ _ hab
  | error he => exact .error he

end

namespace Parser

section

variable {R : Nat → Nat → Prop} {p q : Parser} {i j : Nat}

/-! ## Lemmas: parts of a step -/

theorem alike_initial : Alike R initial initial := .intro .nil .nothing

theorem ensureIdle_alike (h : p.Alike R q) (hij : R i j) :
    OutcomeAlike R Eq (p.ensureIdle i) (q.ensureIdle j) := by
  obtain ⟨-, hpending⟩ := h
  cases hpending with
  | nothing => exact .ok rfl
  | _ => exact .fails hij

theorem pushOnto_alike {fs gs : List Frame} (h : List.Forall₂ (Frame.Alike R) fs gs)
    (root : List Node) (n : Node) :
    ∃ root' fs' gs', pushOnto root fs n = (root', fs') ∧ pushOnto root gs n = (root', gs') ∧
      List.Forall₂ (Frame.Alike R) fs' gs' := by
  induction h generalizing n with
  | nil => exact ⟨_, _, _, rfl, rfl, .nil⟩
  | @cons f g fs gs hfg hrest ih =>
    obtain ⟨hij⟩ := hfg
    unfold pushOnto
    split
    · exact ih _
    · exact ⟨_, _, _, rfl, rfl, .cons (.intro hij) hrest⟩

theorem push_alike (h : p.Alike R q) (n : Node) : (p.push n).Alike R (q.push n) := by
  obtain ⟨hstack, hpending⟩ := h
  obtain ⟨root', fs', gs', hp, hq, hstack⟩ := pushOnto_alike hstack _ n
  unfold push
  rw [hp, hq]
  exact .intro hstack hpending

theorem openGroup_alike (h : p.Alike R q) (hij : R i j) (opening : Opening) (b : Bool) :
    OutcomeAlike R (Alike R) (p.openGroup opening i b) (q.openGroup opening j b) := by
  obtain ⟨hstack, hpending⟩ := h
  unfold openGroup
  rw [hstack.length_eq]
  split
  · exact .fails hij
  · exact .ok (.intro (.cons (.intro hij) hstack) hpending)

theorem checkAttribute_alike (hij : R i j) (attr : String) :
    OutcomeAlike R Eq (checkAttribute attr i) (checkAttribute attr j) := by
  unfold checkAttribute
  split
  · exact .fails hij
  · exact .ok rfl

theorem comparison_alike (hij : R i j) (attr : String) (o : Operator) (value : Literal) :
    OutcomeAlike R Eq (comparison attr o value i) (comparison attr o value j) := by
  unfold comparison
  split
  · split
    · exact .fails hij
    · exact .ok rfl
  · exact .ok rfl

theorem toNode_alike {f g : Frame} (h : f.Alike R g) : OutcomeAlike R Eq f.toNode g.toNode := by
  obtain ⟨hij⟩ := h
  unfold Frame.toNode
  dsimp only
  split
  · exact .ok rfl
  · exact .ok rfl
  · exact .ok rfl
  · exact .ok rfl
  · exact .ok rfl
  · exact .fails hij
  · exact .fails hij

theorem operand_alike (h : p.Alike R q) (hij : R i j) (w : Operand) :
    OutcomeAlike R (Alike R) (p.operand w i) (q.operand w j) := by
  obtain ⟨hstack, hpending⟩ := h
  cases hpending with
  | nothing => exact .ok (.intro hstack (.leading hij))
  | leading => exact .fails hij
  | operator =>
    refine (comparison_alike hij _ _ _).bind ?_
    rintro c _ rfl
    exact .ok (push_alike (.intro hstack .nothing) (.compare c))
  | has =>
    cases w with
    | literal => exact .fails hij
    | word attr =>
      refine (checkAttribute_alike hij attr).bind ?_
      rintro _ _ rfl
      exact .ok (push_alike (.intro hstack .nothing) _)

theorem operator_alike (h : p.Alike R q) (hij : R i j) (o : Operator) :
    OutcomeAlike R (Alike R) (p.operator o i) (q.operator o j) := by
  obtain ⟨hstack, hpending⟩ := h
  cases hpending with
  | @leading w _ _ hfirst =>
    cases w with
    | literal => exact .fails hfirst
    | word attr =>
      refine (checkAttribute_alike hfirst attr).bind ?_
      rintro _ _ rfl
      exact .ok (.intro hstack .operator)
  | _ => exact .fails hij

theorem membership_alike (h : p.Alike R q) (hij : R i j) :
    OutcomeAlike R (Alike R) (p.membership i) (q.membership j) := by
  obtain ⟨hstack, hpending⟩ := h
  cases hpending with
  | leading hfirst =>
    unfold membership
    dsimp only
    split
    · exact .fails hfirst
    · exact .ok (.intro hstack .has)
  | _ => exact .fails hij

theorem combinator_alike (h : p.Alike R q) (hij : R i j) (opening : Opening) :
    OutcomeAlike R (Alike R) (p.combinator opening i) (q.combinator opening j) := by
  refine (ensureIdle_alike h hij).bind fun _ _ _ => ?_
  refine (openGroup_alike h hij opening false).bind ?_
  rintro _ _ ⟨hstack, hpending⟩
  exact .ok (.intro hstack hpending)

theorem close_alike (h : p.Alike R q) (hij : R i j) :
    OutcomeAlike R (Alike R) (p.close i) (q.close j) := by
  refine (ensureIdle_alike h hij).bind fun _ _ _ => ?_
  obtain ⟨hstack, hpending⟩ := h
  cases hstack with
  | nil => exact .fails hij
  | cons hfg hrest =>
    have hnode := toNode_alike hfg
    obtain ⟨hfirst⟩ := hfg
    dsimp only
    split
    · refine hnode.bind ?_
      rintro n _ rfl
      exact .ok (push_alike (.intro hrest hpending) n)
    · exact .fails hfirst

/-! ## Lemmas: steps and runs -/

theorem take_alike (h : p.Alike R q) {l m : Lexeme} (hlm : l.Alike R m) :
    OutcomeAlike R (Alike R) (p.take l) (q.take m) := by
  obtain @⟨token, _, _, hij⟩ := hlm
  cases token with
  | word => exact operand_alike h hij _
  | integer => exact operand_alike h hij _
  | quoted => exact operand_alike h hij _
  | op o =>
    cases o with
    | has => exact membership_alike h hij
    | _ => exact operator_alike h hij _
  | leftParen =>
    exact (ensureIdle_alike h hij).bind fun _ _ _ => openGroup_alike h hij .bare true
  | rightParen => exact close_alike h hij
  | and => exact combinator_alike h hij .and
  | or => exact combinator_alike h hij .or
  | not => exact combinator_alike h hij .not

theorem feed_alike (h : p.Alike R q) {l m : Lexeme} (hlm : l.Alike R m) :
    OutcomeAlike R (Alike R) (p.feed l) (q.feed m) := by
  obtain @⟨root, fs, gs, a, b, awaiting, hstack, hpending⟩ := h
  cases awaiting with
  | false => exact take_alike (.intro hstack hpending) hlm
  | true =>
    have htake : OutcomeAlike R (Alike R) (take ⟨root, fs, a, false⟩ l)
        (take ⟨root, gs, b, false⟩ m) := take_alike (.intro hstack hpending) hlm
    obtain ⟨hij⟩ := hlm
    cases hstack with
    | nil => exact htake
    | cons hfg hrest =>
      obtain ⟨hfirst⟩ := hfg
      unfold feed
      dsimp only
      rw [if_pos rfl, if_pos rfl]
      split
      · exact .ok (.intro (.cons (.intro hfirst) hrest) hpending)
      · split
        · exact htake
        · exact .fails hij

theorem run_alike (h : p.Alike R q) {ls ms : List Lexeme}
    (hlm : List.Forall₂ (Lexeme.Alike R) ls ms) :
    OutcomeAlike R (Alike R) (ls.foldlM feed p) (ms.foldlM feed q) := by
  induction hlm generalizing p q with
  | nil => exact .ok h
  | cons hl _ ih =>
    rw [List.foldlM_cons, List.foldlM_cons]
    exact (feed_alike h hl).bind fun _ _ h => ih h

theorem finish_alike (h : p.Alike R q) (hij : R i j) :
    OutcomeAlike R Eq (p.finish i) (q.finish j) := by
  refine (ensureIdle_alike h hij).bind fun _ _ _ => ?_
  obtain ⟨hstack, -⟩ := h
  cases hstack with
  | nil => exact .ok rfl
  | cons hfg _ =>
    obtain ⟨hfirst⟩ := hfg
    dsimp only
    split
    · exact .fails hfirst
    · split
      · exact .fails hfirst
      · exact .fails hfirst

end

end Parser

/-! ## Top theorem -/

/-- Two texts with the same tokens have the same outcome, but for the position of an error. -/
theorem parse_alike {R : Nat → Nat → Prop} {s t : Scan} (h : s.Alike R t) {stop stop' : Nat}
    (hstop : R stop stop') : OutcomeAlike R Eq (s.parse stop) (t.parse stop') := by
  obtain ⟨hlexemes, herror⟩ := h
  refine (Parser.run_alike Parser.alike_initial hlexemes).bind fun p q hpq => ?_
  cases hs : s.stop <;> cases ht : t.stop <;> rw [hs, ht] at herror <;> cases herror
  · exact Parser.finish_alike hpq hstop
  · exact .error ‹_›

end PictureSearch.Query

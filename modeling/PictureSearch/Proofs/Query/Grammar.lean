import PictureSearch.Query.Parser

/-!
# The grammar

What a list of tokens says, with no parser in sight.  A clause is a comparison or a group; a query
is any number of clauses, side by side.

    clause  := compare | '(' clause* ')' | '&' '(' clause* ')' | '|' '(' clause* ')'
             | '!' '(' clause ')' | '!' clause
    compare := attr op value | value '@' attr

A clause behind `!` alone does not start with a parenthesis.  Each derivation says how many groups
may still be opened around its parts, so that `Clauses maxDepth ts ns` is a derivation where no
more than `maxDepth` groups are ever open at once.
-/

namespace PictureSearch.Query

/-- The literal that a token is, when it stands for a value. -/
inductive Spells : Token → Literal → Prop
  | word {s : String} : Spells (.word s) (.text s)
  | integer {n : Int64} : Spells (.integer n) (.integer n)
  | quoted {s : String} : Spells (.quoted s) (.text s)

/-- The relation that a written operator asks for: a pattern makes it a match. -/
def Operator.relation (o : Operator) (value : Literal) : Op :=
  if value.isWildcard then .like else o.toOp

inductive Comparison : List Token → Compare → Prop
  | scalar {attr : String} {o : Operator} {t : Token} {value : Literal} :
      '%' ∉ attr.toList → o ≠ .has → Spells t value → (value.isWildcard = true → o ≠ .neq) →
        Comparison [.word attr, .op o, t] ⟨attr, o.relation value, value⟩
  | membership {t : Token} {value : Literal} {attr : String} :
      Spells t value → value.isWildcard = false → '%' ∉ attr.toList →
        Comparison [t, .op .has, .word attr] ⟨attr, .has, value⟩

/-- The node of clauses in bare parentheses: one clause is itself. -/
def enclosed : List Node → Node
  | [n] => n
  | ns => .group .and ns

mutual

/-- A clause where `room` more groups may be opened. -/
inductive Clause : Nat → List Token → Node → Prop
  | comparison {room : Nat} {ts : List Token} {c : Compare} :
      Comparison ts c → Clause room ts (.compare c)
  | parentheses {room : Nat} {ts : List Token} {ns : List Node} :
      Clauses room ts ns → Clause (room + 1) (.leftParen :: (ts ++ [.rightParen])) (enclosed ns)
  | and {room : Nat} {ts : List Token} {ns : List Node} :
      Clauses room ts ns →
        Clause (room + 1) (.and :: .leftParen :: (ts ++ [.rightParen])) (.group .and ns)
  | or {room : Nat} {ts : List Token} {ns : List Node} :
      Clauses room ts ns →
        Clause (room + 1) (.or :: .leftParen :: (ts ++ [.rightParen])) (.group .or ns)
  | not {room : Nat} {ts : List Token} {n : Node} :
      Clause room ts n →
        Clause (room + 1) (.not :: .leftParen :: (ts ++ [.rightParen])) (.group .not [n])
  /-- A negation without parentheses. -/
  | bareNot {room : Nat} {ts : List Token} {n : Node} :
      Clause room ts n → ts.head? ≠ some .leftParen →
        Clause (room + 1) (.not :: ts) (.group .not [n])

inductive Clauses : Nat → List Token → List Node → Prop
  | nil {room : Nat} : Clauses room [] []
  | cons {room : Nat} {ts us : List Token} {n : Node} {ns : List Node} :
      Clause room ts n → Clauses room us ns → Clauses room (ts ++ us) (n :: ns)

end

/-! ## Lemmas -/

theorem Comparison.ne_nil {ts : List Token} {c : Compare} (h : Comparison ts c) : ts ≠ [] := by
  cases h <;> simp

theorem Clause.ne_nil {room : Nat} {ts : List Token} {n : Node} (h : Clause room ts n) :
    ts ≠ [] := by
  cases h with
  | comparison hc => exact hc.ne_nil
  | _ => simp

theorem Clauses.singleton {room : Nat} {ts : List Token} {n : Node} (h : Clause room ts n) :
    Clauses room ts [n] := by
  have := Clauses.cons h .nil
  rwa [List.append_nil] at this

theorem Clauses.eq_nil {room : Nat} {ts : List Token} (h : Clauses room ts []) : ts = [] := by
  cases h
  rfl

theorem Clauses.clause {room : Nat} {ts : List Token} {n : Node} (h : Clauses room ts [n]) :
    Clause room ts n := by
  cases h with
  | cons hn hs =>
    rw [hs.eq_nil, List.append_nil]
    exact hn

end PictureSearch.Query

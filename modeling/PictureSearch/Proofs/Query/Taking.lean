import PictureSearch.Proofs.Outcome
import PictureSearch.Proofs.Query.Grammar

/-!
# What the parser takes

When each part of the parser succeeds and with what: the checks of a comparison, the opening of a
group, and the tokens that are passed on to one operation each.
-/

namespace PictureSearch.Query

/-- The token as one side of a comparison. -/
def Token.operand? : Token → Option Operand
  | .word s => some (.word s)
  | .integer n => some (.literal (.integer n))
  | .quoted s => some (.literal (.text s))
  | _ => none

/-- What stands before the parenthesis of a group. -/
def Opening.sign : Opening → List Token
  | .bare => []
  | .and => [.and]
  | .or => [.or]
  | .not => [.not]

namespace Parser

/-- Between two clauses. -/
abbrev settled (root : List Node) (stack : List Frame) : Parser := ⟨root, stack, .nothing, false⟩

/-! ## Lemmas -/

theorem spells_iff {t : Token} {value : Literal} :
    Spells t value ↔ ∃ w, t.operand? = some w ∧ w.toLiteral = value := by
  constructor
  · intro h
    cases h <;> exact ⟨_, rfl, rfl⟩
  · rintro ⟨w, hw, rfl⟩
    cases t <;> cases hw <;> constructor

theorem operand?_eq_word {t : Token} {s : String} (h : t.operand? = some (.word s)) :
    t = .word s := by
  cases t <;> simp [Token.operand?] at h
  rw [h]

theorem checkAttribute_eq_ok_iff {attr : String} {offset : Nat} :
    checkAttribute attr offset = .ok () ↔ '%' ∉ attr.toList := by
  unfold checkAttribute
  by_cases h : '%' ∈ attr.toList <;> simp [h]

theorem comparison_eq_ok_iff {attr : String} {o : Operator} {value : Literal} {offset : Nat}
    {c : Compare} :
    comparison attr o value offset = .ok c ↔
      (value.isWildcard = true → o ≠ .neq) ∧ c = ⟨attr, o.relation value, value⟩ := by
  unfold comparison Operator.relation
  by_cases hv : value.isWildcard = true
  · by_cases ho : o = .neq
    · simp [hv, ho]
    · simp [hv, ho, eq_comm]
  · simp [hv, eq_comm]

theorem ensureIdle_eq_ok_iff {p : Parser} {offset : Nat} :
    p.ensureIdle offset = .ok () ↔ p.pending = .nothing := by
  unfold ensureIdle
  cases p.pending <;> simp

theorem openGroup_eq_ok_iff {p q : Parser} {opening : Opening} {offset : Nat} {b : Bool} :
    p.openGroup opening offset b = .ok q ↔
      p.stack.length < maxDepth ∧ q = { p with stack := ⟨opening, [], offset, b⟩ :: p.stack } := by
  unfold openGroup
  by_cases h : maxDepth ≤ p.stack.length
  · simp [h, Nat.not_lt.2 h]
  · simp [h, Nat.lt_of_not_le h, eq_comm]

theorem take_operand {p : Parser} {l : Lexeme} {w : Operand} (h : l.token.operand? = some w) :
    p.take l = p.operand w l.offset := by
  obtain ⟨t, offset⟩ := l
  cases t <;> cases h <;> rfl

theorem take_op {p : Parser} {l : Lexeme} {o : Operator} (h : l.token = .op o) (ho : o ≠ .has) :
    p.take l = p.operator o l.offset := by
  obtain ⟨t, offset⟩ := l
  cases h
  cases o <;> first | rfl | exact absurd rfl ho

end Parser

end PictureSearch.Query

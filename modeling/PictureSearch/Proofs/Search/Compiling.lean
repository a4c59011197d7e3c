import PictureSearch.Proofs.Outcome
import PictureSearch.Search.Compile

/-!
# What compiling yields

A compiled comparison is one of four tests, and `Asks` says which.  Where a comparison compiles its
name is that of an exposed attribute and its operands fit the attribute:

    compileCompare exposed cmp = .ok p ↔
      ∃ attr t, attr ∈ exposed ∧ attr.text = cmp.attr ∧ Asks attr cmp.op cmp.value t ∧ p = .test t
                                                                    (compileCompare_eq_ok_iff)
-/

namespace PictureSearch

open Query

/-- The operator compares one value with another. -/
def Query.Op.IsScalar (op : Op) : Prop := op ≠ .like ∧ op ≠ .has

/-- The test that an operator and a literal make of an attribute whose values they fit. -/
inductive Asks (attr : Attribute) : Op → Literal → Test → Prop
  | contains {value : Literal} :
      attr.kind = .set → Asks attr .has value (.contains attr value.operandText)
  | like {value : Literal} :
      attr.kind = .text → Pattern.isTooLarge value.operandText = false →
        Asks attr .like value (.like attr value.operandText)
  | integer {op : Op} {n : Int64} :
      attr.kind = .integer → op.IsScalar →
        Asks attr op (.integer n) (.compare attr op (.integer n))
  | text {op : Op} {value : Literal} :
      attr.kind = .text → op.IsScalar →
        Asks attr op value (.compare attr op (.text value.operandText))

/-! ## Lemmas -/

theorem Attribute.ofText?_text (attr : Attribute) : Attribute.ofText? attr.text = some attr := by
  cases attr <;> decide

theorem Attribute.ofText?_eq_some_iff {s : String} {attr : Attribute} :
    Attribute.ofText? s = some attr ↔ attr.text = s := by
  constructor
  · intro h
    simpa using List.find?_some h
  · rintro rfl
    exact attr.ofText?_text

theorem Attribute.text_inj {a b : Attribute} (h : a.text = b.text) : a = b := by
  have hb := b.ofText?_text
  rw [← h, a.ofText?_text] at hb
  exact Option.some.inj hb

theorem resolve_eq_ok_iff {exposed : List Attribute} {name : String} {attr : Attribute} :
    resolve exposed name = .ok attr ↔ attr ∈ exposed ∧ attr.text = name := by
  rw [← Attribute.ofText?_eq_some_iff]
  unfold resolve
  cases Attribute.ofText? name with
  | none => simp
  | some found =>
    by_cases hf : found ∈ exposed
    · simp only [hf, if_true, Except.ok.injEq, Option.some.injEq]
      constructor
      · rintro rfl
        exact ⟨hf, rfl⟩
      · exact fun h => h.2
    · simp only [hf, if_false, reduceCtorEq, Option.some.injEq, false_iff]
      rintro ⟨ha, rfl⟩
      exact hf ha

/-- Where the check passes, the test is the one that is asked for. -/
theorem asks_of_compileTest {attr : Attribute} {op : Op} {value : Literal} {t : Test}
    (hc : checkOperands attr op value = .ok ()) (ht : compileTest attr op value = .ok t) :
    Asks attr op value t := by
  cases hk : attr.kind with
  | set =>
    cases op <;> simp [checkOperands, hk] at hc
    cases ht
    exact .contains hk
  | integer =>
    cases op <;> cases value <;> simp [checkOperands, hk] at hc
    all_goals
      simp only [compileTest, hk] at ht
      cases ht
      exact .integer hk ⟨by decide, by decide⟩
  | text =>
    cases op <;> simp [checkOperands, hk] at hc
    case like =>
      unfold compileTest at ht
      cases hp : Pattern.isTooLarge value.operandText <;> simp [hp] at ht
      subst ht
      exact .like hk hp
    all_goals
      simp only [compileTest, hk] at ht
      cases ht
      exact .text hk ⟨by decide, by decide⟩

theorem compileTest_of_asks {attr : Attribute} {op : Op} {value : Literal} {t : Test}
    (h : Asks attr op value t) :
    checkOperands attr op value = .ok () ∧ compileTest attr op value = .ok t := by
  cases h with
  | contains hk => simp [checkOperands, compileTest, hk]
  | like hk hp => simp [checkOperands, compileTest, hk, hp]
  | integer hk hs =>
    obtain ⟨hl, hh⟩ := hs
    cases op <;> simp [checkOperands, compileTest, hk] at hl hh ⊢
  | text hk hs =>
    obtain ⟨hl, hh⟩ := hs
    cases op <;> simp [checkOperands, compileTest, hk] at hl hh ⊢

theorem compileCompare_eq_ok_iff {exposed : List Attribute} {cmp : Compare} {p : Predicate} :
    compileCompare exposed cmp = .ok p ↔
      ∃ attr t, attr ∈ exposed ∧ attr.text = cmp.attr ∧ Asks attr cmp.op cmp.value t ∧
        p = .test t := by
  unfold compileCompare
  constructor
  · intro h
    obtain ⟨attr, hr, h⟩ := bind_eq_ok_iff.1 h
    obtain ⟨⟨⟩, hc, h⟩ := bind_eq_ok_iff.1 h
    obtain ⟨t, ht, h⟩ := bind_eq_ok_iff.1 h
    cases h
    obtain ⟨hm, hn⟩ := resolve_eq_ok_iff.1 hr
    exact ⟨attr, t, hm, hn, asks_of_compileTest hc ht, rfl⟩
  · rintro ⟨attr, t, hm, hn, ha, rfl⟩
    obtain ⟨hc, ht⟩ := compileTest_of_asks ha
    have hr : resolve exposed cmp.attr = .ok attr := resolve_eq_ok_iff.2 ⟨hm, hn⟩
    exact bind_eq_ok_iff.2 ⟨attr, hr, bind_eq_ok_iff.2 ⟨(), hc, bind_eq_ok_iff.2 ⟨t, ht, rfl⟩⟩⟩

theorem compileNode_group_eq_ok_iff {exposed : List Attribute} {kind : GroupKind}
    {children : List Node} {p : Predicate} :
    compileNode exposed (.group kind children) = .ok p ↔
      ∃ parts, compileNodes exposed children = .ok parts ∧ Predicate.ofGroup kind parts = p := by
  rw [compileNode, map_eq_ok_iff]

theorem compileNodes_cons_eq_ok_iff {exposed : List Attribute} {n : Node} {rest : List Node}
    {parts : List Predicate} :
    compileNodes exposed (n :: rest) = .ok parts ↔
      ∃ p ps, compileNode exposed n = .ok p ∧ compileNodes exposed rest = .ok ps ∧
        p :: ps = parts := by
  rw [compileNodes]
  cases compileNode exposed n with
  | error e => simp
  | ok p => simp [map_eq_ok_iff]

end PictureSearch

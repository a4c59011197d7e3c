import PictureSearch.Proofs.Search.Comparing

/-!
# Comparisons of sizes

A size is an unsigned word and a literal a signed one.  Sizes past the greatest signed word count as
that word.  So a comparison of a size with a number says what holds of the two as numbers, unless
the number is that word and the size lies past it: the size is then level with the number where it
should be above, which turns round the answer of every operator that tells the two apart:

    ¬ Capped item.size op n →
      (id ∈ c.matching p ↔ op.Relates (· < ·) (item.size.toNat : Int) n.toInt)
    Capped item.size op n →
      (id ∈ c.matching p ↔ ¬ op.Relates (· < ·) (item.size.toNat : Int) n.toInt)
                                                                          (matching_size_iff)
-/

namespace PictureSearch

open Query

/-! ## Statements -/

/-- The size lies past the greatest signed word, the number is that word, and the operator tells
level and above apart. -/
structure Capped (size : UInt64) (op : Op) (n : Int64) : Prop where
  large : Int64.maxValue.toInt < size.toNat
  limit : n = Int64.maxValue
  op : op = .eq ∨ op = .neq ∨ op = .gt ∨ op = .lte

/-! ## Lemmas -/

theorem Capped.iff {size : UInt64} {op : Op} {n : Int64} :
    Capped size op n ↔ Int64.maxValue.toInt < size.toNat ∧ n.toInt = Int64.maxValue.toInt ∧
      (op = .eq ∨ op = .neq ∨ op = .gt ∨ op = .lte) :=
  ⟨fun ⟨hl, hn, ho⟩ => ⟨hl, congrArg _ hn, ho⟩, fun ⟨hl, hn, ho⟩ => ⟨hl, Int64.toInt_inj.1 hn, ho⟩⟩

/-- Below a bound on the second value, cutting the first one to the bound turns a comparison round
in one case: where the second value is the bound and the first one lies past it. -/
theorem relates_min_iff {op : Op} (hop : op.IsScalar) {s m n : Int} (hn : n ≤ m) :
    op.Relates (· < ·) (min s m) n ↔
      (op.Relates (· < ·) s n ↔
        ¬ (m < s ∧ n = m ∧ (op = .eq ∨ op = .neq ∨ op = .gt ∨ op = .lte))) := by
  obtain ⟨hl, hh⟩ := hop
  by_cases hs : m < s
  · rw [Int.min_eq_right hs.le]
    cases op <;> simp only [Op.Relates, reduceCtorEq, or_false, or_true, and_true, and_false,
      not_false_eq_true, iff_true] <;> first | contradiction | omega
  · rw [Int.min_eq_left (Int.not_lt.1 hs)]
    simp only [hs, false_and, not_false_eq_true, iff_true]

namespace Catalog

variable (c : Catalog)

theorem passes_size_iff_min (item : Item) (op : Op) (n : Int64) :
    c.passes item (.compare .size op (.integer n)) = true ↔
      op.Relates (· < ·) (min (item.size.toNat : Int) Int64.maxValue.toInt) n.toInt :=
  allows_compare_iff (fun _ _ : Int => Int.compare_eq_lt) op _ _

/-- What the test of a size says, with sizes and numbers taken as they are. -/
theorem passes_size_iff (item : Item) {op : Op} (hop : op.IsScalar) (n : Int64) :
    c.passes item (.compare .size op (.integer n)) = true ↔
      (op.Relates (· < ·) (item.size.toNat : Int) n.toInt ↔ ¬ Capped item.size op n) := by
  rw [passes_size_iff_min, relates_min_iff hop n.toInt_le, Capped.iff]

variable {c} in
/-- Where a number equals a size, it is the size cut to a signed word. -/
theorem min_size_eq_of_mem {viewer : ViewerId} {n : Int64} {id : ItemId} {x : Item}
    (h : id ∈ c.matching (.asking viewer (.compare .size .eq (.integer n))))
    (hx : c.item? id = some x) : min (x.size.toNat : Int) Int64.maxValue.toInt = n.toInt := by
  obtain ⟨item, hi, hv, _⟩ := (mem_matching_visible_iff c viewer _ id).1 h
  obtain rfl := Option.some.inj (hx.symm.trans hi)
  rw [mem_matching_asking_iff c hi hv] at h
  exact (c.passes_size_iff_min x .eq n).1 h

/-! ## Top theorem -/

/-- **Comparisons of sizes are exact up to the greatest signed word.** A picture that the viewer
sees matches a comparison of its size with a number if and only if the two relate so as numbers.  It
is the other way round only where that word is compared with a size past it, by an operator that
tells level and above apart.  So of two different sizes that equal one number neither is below that
word. -/
theorem matching_size_iff (c : Catalog) {exposed : List Attribute} (hm : .size ∈ exposed) {op : Op}
    (hop : op.IsScalar) (n : Int64) (viewer : ViewerId) :
    ∃ p, compile exposed (.ofNode (.compare ⟨"size", op, .integer n⟩)) viewer = .ok p ∧
      (∀ id item, c.item? id = some item → c.InScope item viewer →
        (¬ Capped item.size op n →
          (id ∈ c.matching p ↔ op.Relates (· < ·) (item.size.toNat : Int) n.toInt)) ∧
        (Capped item.size op n →
          (id ∈ c.matching p ↔ ¬ op.Relates (· < ·) (item.size.toNat : Int) n.toInt))) ∧
      (op = .eq → ∀ a ∈ c.matching p, ∀ b ∈ c.matching p, ∀ x y,
        c.item? a = some x → c.item? b = some y → x.size ≠ y.size →
          Int64.maxValue.toInt ≤ x.size.toNat ∧ Int64.maxValue.toInt ≤ y.size.toNat) := by
  have ha : Asks .size op (.integer n) (.compare .size op (.integer n)) := .integer rfl hop
  refine ⟨_, compile_of_asks hm ha viewer, fun id item hi hv => ?_, ?_⟩
  · rw [mem_matching_asking_iff c hi hv, passes_size_iff c item hop]
    exact ⟨fun h => iff_true_right h, fun h => by simp only [h, not_true, iff_false]⟩
  · rintro rfl a ha b hb x y hx hy hne
    have hxy := (min_size_eq_of_mem ha hx).trans (min_size_eq_of_mem hb hy).symm
    rw [ne_eq, ← UInt64.toNat_inj] at hne
    omega

/-- Two pictures, the greatest signed word large and by one larger. -/
def limitSizes : Catalog := build
  [.library "Own" "own" "/srv/own" false none, .folder ⟨0⟩ "Foo Files",
   .item ⟨0⟩ { name := "a.png", width := 90, height := 90, size := 9223372036854775807 },
   .item ⟨0⟩ { name := "b.png", width := 90, height := 90, size := 9223372036854775808 }]

theorem matching_size_iff_limitSizes :
    ∃ p x y, compile Attribute.all (.ofNode (.compare ⟨"size", .eq, .integer Int64.maxValue⟩)) ⟨0⟩ =
        .ok p ∧
      limitSizes.item? ⟨0⟩ = some x ∧ limitSizes.item? ⟨1⟩ = some y ∧ x.size ≠ y.size ∧
      ¬ Capped x.size .eq Int64.maxValue ∧ ⟨0⟩ ∈ limitSizes.matching p ∧
      Capped y.size .eq Int64.maxValue ∧ ⟨1⟩ ∈ limitSizes.matching p ∧
      Int64.maxValue.toInt ≤ x.size.toNat ∧ Int64.maxValue.toInt ≤ y.size.toNat := by
  have hm : .size ∈ Attribute.all := by decide
  have hop : Op.eq.IsScalar := ⟨by decide, by decide⟩
  obtain ⟨p, hp, hall, hdistinct⟩ := matching_size_iff limitSizes hm hop Int64.maxValue ⟨0⟩
  have hx : limitSizes.item? ⟨0⟩ = some _ := rfl
  have hy : limitSizes.item? ⟨1⟩ = some _ := rfl
  have hexact := (hall ⟨0⟩ _ hx ⟨_, ⟨_, rfl, rfl⟩, .inl rfl⟩).1 fun h => absurd h.large (by decide)
  have hcapped := (hall ⟨1⟩ _ hy ⟨_, ⟨_, rfl, rfl⟩, .inl rfl⟩).2 ⟨by decide, rfl, .inl rfl⟩
  have hfirst : ⟨0⟩ ∈ limitSizes.matching p := hexact.2 (by unfold Op.Relates; decide)
  have hsecond : ⟨1⟩ ∈ limitSizes.matching p := hcapped.2 (by unfold Op.Relates; decide)
  refine ⟨p, _, _, hp, hx, hy, by decide, fun h => absurd h.large (by decide), hfirst,
    ⟨by decide, rfl, .inl rfl⟩, hsecond, ?_⟩
  exact hdistinct rfl _ hfirst _ hsecond _ _ hx hy (by decide)

/-- The greatest signed word equals a size that is greater by one, and so two sizes that differ. -/
theorem limitSizes_not_exact :
    ∃ p x y, compile Attribute.all (.ofNode (.compare ⟨"size", .eq, .integer Int64.maxValue⟩)) ⟨0⟩ =
        .ok p ∧
      limitSizes.item? ⟨0⟩ = some x ∧ limitSizes.item? ⟨1⟩ = some y ∧
      limitSizes.InScope y ⟨0⟩ ∧
      ¬ (⟨1⟩ ∈ limitSizes.matching p ↔
        Op.eq.Relates (· < ·) (y.size.toNat : Int) Int64.maxValue.toInt) ∧
      ¬ (⟨0⟩ ∈ limitSizes.matching p → ⟨1⟩ ∈ limitSizes.matching p → x.size = y.size) := by
  refine ⟨_, _, _, rfl, rfl, rfl, ⟨_, ⟨_, rfl, rfl⟩, .inl rfl⟩, ?_, ?_⟩
  · intro h
    exact absurd (h.1 (by decide +kernel)) (by unfold Op.Relates; decide)
  · intro h
    exact absurd (h (by decide +kernel) (by decide +kernel)) (by decide)

end Catalog

end PictureSearch

import PictureSearch.Proofs.Search.Meaning

/-!
# Queries with one comparison more

A comparison whose operands fit an exposed attribute compiles to one test, alone or behind any query
that compiles.  The test then decides on what the viewer sees, or on what the query finds:

    c.item? id = some item → c.InScope item viewer →
      (id ∈ c.matching (.asking viewer t) ↔ c.passes item t = true)        (mem_matching_asking_iff)
    c.matching (.narrowed viewer q t) =
      (c.matching (.and [.test (.visible viewer), q])).filter (c.admits (.test t))
                                                                             (matching_narrowed)
-/

namespace PictureSearch

open Query

namespace Predicate

/-- What a query that is one comparison compiles to. -/
def asking (viewer : ViewerId) (t : Test) : Predicate :=
  .and [.test (.visible viewer), .and [.test t]]

/-- What a query compiles to when a comparison is put behind it. -/
def narrowed (viewer : ViewerId) (q : Predicate) (t : Test) : Predicate :=
  .and [.test (.visible viewer), .and [q, .test t]]

end Predicate

/-! ## Lemmas -/

section Compiling

variable {exposed : List Attribute} {attr : Attribute} {op : Op} {value : Literal} {t : Test}
  (hm : attr ∈ exposed) (ha : Asks attr op value t)

include hm ha

theorem compileNode_of_asks :
    compileNode exposed (.compare ⟨attr.text, op, value⟩) = .ok (.test t) :=
  compileCompare_eq_ok_iff.2 ⟨attr, t, hm, rfl, ha, rfl⟩

theorem compile_of_asks (viewer : ViewerId) :
    compile exposed (.ofNode (.compare ⟨attr.text, op, value⟩)) viewer =
      .ok (.asking viewer t) := by
  refine map_eq_ok_iff.2 ⟨.and [.test t], ?_, rfl⟩
  refine compileNode_group_eq_ok_iff.2 ⟨[.test t], ?_, rfl⟩
  exact compileNodes_cons_eq_ok_iff.2 ⟨.test t, [], compileNode_of_asks hm ha, rfl, rfl⟩

theorem compile_narrowed {root : Group} {q : Predicate}
    (hq : compileNode exposed root.toNode = .ok q) (viewer : ViewerId) :
    compile exposed ⟨.and, [root.toNode, .compare ⟨attr.text, op, value⟩]⟩ viewer =
      .ok (.narrowed viewer q t) := by
  refine map_eq_ok_iff.2 ⟨.and [q, .test t], ?_, rfl⟩
  refine compileNode_group_eq_ok_iff.2 ⟨[q, .test t], ?_, rfl⟩
  refine compileNodes_cons_eq_ok_iff.2 ⟨q, [.test t], hq, ?_, rfl⟩
  exact compileNodes_cons_eq_ok_iff.2 ⟨.test t, [], compileNode_of_asks hm ha, rfl, rfl⟩

end Compiling

namespace Catalog

variable (c : Catalog)

theorem mem_matching_asking_iff {id : ItemId} {item : Item} (hi : c.item? id = some item)
    {viewer : ViewerId} (hv : c.InScope item viewer) (t : Test) :
    id ∈ c.matching (.asking viewer t) ↔ c.passes item t = true := by
  have hadmits : c.admits (.and [.test t]) id = c.passes item t := by
    simp [admits, admitsAll, hi]
  rw [Predicate.asking, mem_matching_visible_iff, hadmits]
  constructor
  · rintro ⟨_, _, _, ht⟩
    exact ht
  · exact fun ht => ⟨item, hi, hv, ht⟩

theorem matching_narrowed (viewer : ViewerId) (q : Predicate) (t : Test) :
    c.matching (.narrowed viewer q t) =
      (c.matching (.and [.test (.visible viewer), q])).filter (c.admits (.test t)) := by
  rw [matching_eq_filter, matching_eq_filter, List.filter_filter]
  refine List.filter_congr fun id _ => ?_
  simp only [Predicate.narrowed, admits, admitsAll, Bool.and_true]
  rw [← Bool.and_assoc, Bool.and_comm]

end Catalog

end PictureSearch

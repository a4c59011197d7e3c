import Mathlib.Algebra.Group.Nat.Defs
import PictureSearch.Proofs.Catalog.Paths
import PictureSearch.Proofs.Search.Selection
import PictureSearch.Search.Results

/-!
# Pages

A page is a stretch of the whole result.  The start of a page is a product that is cut at the
greatest word, and no result is long enough for the cut to show:

    c.items.size < UInt64.size →
      (c.ids (q.page page perPage))[i]? =
        if i < perPage then (c.ids q.unpaged)[page * perPage + i]? else none
                                                                          (getElem?_ids_page)
    c.items.size < UInt64.size →
      c.pages q perPage n = (c.ids q.unpaged).take (n * perPage)                (pages_eq_take)
    c.Built → (c.views q).map ItemView.id = c.ids q                         (Built.map_id_views)

so the pages cut the result into pieces, and every picture on a page has its row
(`pages_partition`).
-/

namespace PictureSearch

/-- The query for all that is found. -/
def ItemQuery.unpaged (q : ItemQuery) : ItemQuery := { q with offset := 0, limit := none }

namespace Catalog

/-- The first `n` pages, one behind the other. -/
def pages (c : Catalog) (q : ItemQuery) (perPage n : Nat) : List ItemId :=
  (List.range n).flatMap fun page => c.ids (q.page page perPage)

/-! ## Lemmas: the whole result -/

section

variable (c : Catalog) (q : ItemQuery)

theorem ids_unpaged : c.ids q.unpaged = c.sorted q := List.drop_zero

theorem sorted_perm_matching : (c.sorted q).Perm (c.matching q.predicate) := List.mergeSort_perm _ _

theorem nodup_sorted : (c.sorted q).Nodup := by
  refine (c.sorted_perm_matching q).nodup_iff.2 ((c.matching_pairwise q.predicate).imp ?_)
  rintro a b hlt rfl
  exact Nat.lt_irrefl _ hlt

theorem length_sorted_le : (c.sorted q).length ≤ c.items.size := by
  rw [(c.sorted_perm_matching q).length_eq, matching_eq_filter]
  calc (c.itemIds.filter (c.admits q.predicate)).length
      ≤ c.itemIds.length := List.length_filter_le _ _
    _ = c.items.size := by rw [itemIds, SortedMap.keys, List.length_map, List.length_map]; rfl

end

theorem mem_matching_of_mem_ids {c : Catalog} {q : ItemQuery} {id : ItemId} (h : id ∈ c.ids q) :
    id ∈ c.matching q.predicate := by
  have hsorted : id ∈ c.sorted q := by
    unfold ids at h
    cases hl : q.limit with
    | none =>
      rw [hl] at h
      exact List.mem_of_mem_drop h
    | some limit =>
      rw [hl] at h
      exact List.mem_of_mem_drop (List.mem_of_mem_take h)
  exact (c.sorted_perm_matching q).mem_iff.1 hsorted

/-! ## Lemmas: pages -/

/-- Beyond the end of a list it does not matter where a part is said to start. -/
theorem drop_min_of_length_le {α : Type} {l : List α} {m : Nat} (h : l.length ≤ m) (n : Nat) :
    l.drop (min n m) = l.drop n := by
  rcases Nat.le_total n m with hn | hn
  · rw [Nat.min_eq_left hn]
  · rw [Nat.min_eq_right hn, List.drop_eq_nil_of_le h, List.drop_eq_nil_of_le (by omega)]

section

variable {c : Catalog} (hsize : c.items.size < UInt64.size) (q : ItemQuery) (perPage : Nat)

include hsize

theorem ids_page (page : Nat) :
    c.ids (q.page page perPage) = ((c.sorted q).drop (page * perPage)).take perPage := by
  have hlength : (c.sorted q).length ≤ UInt64.size - 1 := by
    have := c.length_sorted_le q
    omega
  show ((c.sorted q).drop (min (page * perPage) (UInt64.size - 1))).take perPage = _
  rw [drop_min_of_length_le hlength]

theorem getElem?_ids_page (page i : Nat) :
    (c.ids (q.page page perPage))[i]? =
      if i < perPage then (c.ids q.unpaged)[page * perPage + i]? else none := by
  rw [ids_page hsize, ids_unpaged, List.getElem?_take, List.getElem?_drop]

theorem pages_eq_take (n : Nat) :
    c.pages q perPage n = (c.ids q.unpaged).take (n * perPage) := by
  rw [ids_unpaged]
  induction n with
  | zero => rw [Nat.zero_mul, List.take_zero]; rfl
  | succ n ih =>
    calc c.pages q perPage (n + 1)
        = c.pages q perPage n ++ c.ids (q.page n perPage) := by
          rw [pages, List.range_succ, List.flatMap_append, List.flatMap_singleton, pages]
      _ = (c.sorted q).take (n * perPage) ++ ((c.sorted q).drop (n * perPage)).take perPage := by
          rw [ih, ids_page hsize]
      _ = (c.sorted q).take ((n + 1) * perPage) := by rw [Nat.succ_mul, List.take_add]

end

/-! ## Lemmas: rows -/

theorem Built.exists_view? {c : Catalog} (h : c.Built) {id : ItemId} {item : Item}
    (hi : c.item? id = some item) : ∃ v, c.view? id = some v ∧ v.id = id := by
  have hpath := h.isSome_itemPath? id
  rw [hi] at hpath
  obtain ⟨path, hpath⟩ := Option.isSome_iff_exists.1 hpath
  exact ⟨_, by simp [view?, hi, hpath]; rfl, rfl⟩

theorem Built.map_id_views {c : Catalog} (h : c.Built) (q : ItemQuery) :
    (c.views q).map ItemView.id = c.ids q := by
  have hrow : ∀ id ∈ c.ids q, (c.view? id).map ItemView.id = some id := by
    intro id hid
    obtain ⟨⟨item, hi⟩, -⟩ := (c.mem_matching_iff _ _).1 (mem_matching_of_mem_ids hid)
    obtain ⟨v, hv, hvid⟩ := h.exists_view? hi
    rw [hv, Option.map_some, hvid]
  rw [views, List.map_filterMap, List.filterMap_congr hrow, List.filterMap_some]

/-! ## Top theorem -/

/-- **Pages cut the result into pieces.**  The number of pictures found is that of the whole
result, whatever the page; every page is the stretch of the whole result that its number says, and
the pages one behind the other are the whole result; in a catalog built by calls, every picture of
a page has one row, in the order of the page. -/
theorem pages_partition (c : Catalog) (q : ItemQuery) :
    (c.ids q.unpaged).Nodup ∧
      (∀ offset limit, c.count { q with offset, limit } = (c.ids q.unpaged).length) ∧
      (c.items.size < UInt64.size → ∀ perPage,
        (∀ page i, (c.ids (q.page page perPage))[i]? =
          if i < perPage then (c.ids q.unpaged)[page * perPage + i]? else none) ∧
        (∀ n, c.pages q perPage n = (c.ids q.unpaged).take (n * perPage)) ∧
        (0 < perPage → ∀ n, (c.ids q.unpaged).length ≤ n →
          c.pages q perPage n = c.ids q.unpaged)) ∧
      (c.Built → (c.views q).map ItemView.id = c.ids q) := by
  refine ⟨?_, ?_, ?_, ?_⟩
  · rw [ids_unpaged]
    exact c.nodup_sorted q
  · intro offset limit
    rw [ids_unpaged, (c.sorted_perm_matching q).length_eq]
    rfl
  · intro hsize perPage
    refine ⟨getElem?_ids_page hsize q perPage, pages_eq_take hsize q perPage, ?_⟩
    intro hpos n hn
    have hle : n ≤ n * perPage := Nat.le_mul_of_pos_right n hpos
    rw [pages_eq_take hsize, List.take_of_length_le (Nat.le_trans hn hle)]
  · intro h
    exact h.map_id_views q

/-- The pictures of both libraries, of the highest rating first. -/
def ratedFirst : ItemQuery := { predicate := .all, key := .rating, direction := .descending }

theorem pages_partition_ratedFirst :
    withRated.items.size < UInt64.size ∧ withRated.Built ∧
      (withRated.ids ratedFirst.unpaged).length ≤ 2 ∧
      withRated.pages ratedFirst 1 2 = withRated.ids ratedFirst.unpaged ∧
      (withRated.ids (ratedFirst.page (2 ^ 63) 3))[0]? =
        (withRated.ids ratedFirst.unpaged)[2 ^ 63 * 3 + 0]? ∧
      (withRated.views ratedFirst).map ItemView.id = withRated.ids ratedFirst := by
  obtain ⟨-, hcount, hpages, hviews⟩ := pages_partition withRated ratedFirst
  have hsize : withRated.items.size < UInt64.size := by decide
  have hlength : (withRated.ids ratedFirst.unpaged).length ≤ 2 := by
    rw [← hcount 0 none]
    decide
  refine ⟨hsize, built_build _, hlength, (hpages hsize 1).2.2 (by decide) 2 hlength, ?_,
    hviews (built_build _)⟩
  rw [(hpages hsize 3).1]
  rfl

end Catalog

end PictureSearch

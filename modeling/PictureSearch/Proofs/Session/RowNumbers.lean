import PictureSearch.Proofs.Catalog.Indexed
import PictureSearch.Proofs.Payload.Catalog
import PictureSearch.Proofs.Payload.Frame
import PictureSearch.Proofs.Search.Paging
import PictureSearch.Proofs.Session.Tasks

/-!
# The numbers of printed rows

The number in front of a row is the place of its picture in the whole result, counted from 0.  It
is reckoned as a product and a sum, and neither leaves the words where there is a row to print: a
page that starts past every word has no rows, as its start is cut at the greatest word and no
result is that long.  A catalog in memory has fewer pictures than a word counts.

    s.catalog.Loadable → s.catalog.items.size < UInt64.size →
      rows[i]? = some v →
        page * s.perPage + i < UInt64.size ∧
          (s.result predicate)[page * s.perPage + i]? = some v.id                (search_rowNumbers)

That a row is at the place of its picture on the page rests on every picture having a row, in
catalogs that are linked as calls link them; those of snapshots and caches are
(`Catalog.Loadable.built`).
-/

namespace PictureSearch

open Session

/-! ## Statements -/

/-- The catalog was built by calls or loaded from a snapshot, or is what the cache file of such a
catalog holds, when words count what is in it. -/
inductive Catalog.Loadable : Catalog → Prop
  | calls {c : Catalog} : c.Built → Loadable c
  | snapshot {s : Snapshot} {c : Catalog} : Catalog.ofSnapshot s = .ok c → Loadable c
  | cached {c d : Catalog} : Loadable c → c.FitsWords →
      ofCache? (Payload.Frame.pack c.toPayload) = some d → Loadable d

namespace Session

/-- All that the session finds, in its order. -/
def result (s : Session) (predicate : Predicate) : List ItemId :=
  s.catalog.ids { predicate, key := s.key, direction := s.direction }

/-- The lines of a page that has these rows, with the number of its first row. -/
def numbered (first total : Nat) (rows : List ItemView) : List String :=
  rows.mapIdx (fun i v => "[" ++ toString (first + i) ++ "] " ++ v.display) ++
    [toString rows.length ++ " of " ++ toString total ++ " matches"]

/-- The lines as they are printed. -/
def printed (lines : List String) : String := String.join (lines.map (· ++ "\n"))

end Session

/-! ## Lemmas: loading -/

theorem Catalog.Loadable.built {c : Catalog} (h : c.Loadable) : c.Built := by
  induction h with
  | calls h => exact h
  | snapshot h => exact .of_ofSnapshot h
  | @cached c d _ hfits hcache ih =>
    have hread : Catalog.ofPayload c.toPayload = .ok c := by
      have := Catalog.ofPayload_toPayload ih.links hfits []
      rwa [List.append_nil] at this
    unfold ofCache? at hcache
    rw [Payload.Frame.unpack_pack] at hcache
    split at hcache
    · rw [Option.bind_eq_bind, Option.bind_some, hread] at hcache
      obtain rfl : c = d := Option.some.inj hcache
      exact ih
    · cases hcache

/-! ## Lemmas: printing -/

namespace Session

theorem rowLines_eq_mapIdx (first : Nat) (rows : List ItemView) :
    rowLines first rows =
      rows.mapIdx fun i v => "[" ++ toString (first + i) ++ "] " ++ v.display := by
  induction rows generalizing first with
  | nil => rfl
  | cons v rows ih =>
    rw [rowLines, ih, List.mapIdx_cons, Nat.add_zero]
    simp [Nat.add_assoc, Nat.add_comm 1]

theorem run_forM_printLine (lines : List String) (w : World) :
    (lines.forM Task.printLine).run w = ((), { w with out := w.out ++ printed lines }) := by
  induction lines generalizing w with
  | nil => simp [printed]
  | cons line lines ih =>
    show (Task.printLine line >>= fun _ => lines.forM Task.printLine).run w = _
    rw [Task.run_bind, ih]
    simp [printed, Task.printLine, Task.printText, Task.run, String.append_assoc]

theorem run_search_of_error {s : Session} {text : String} {e : QueryError} (page : Nat)
    (h : compileText Attribute.all text s.viewer = .error e) (w : World) :
    (s.search text page).run w = (.error e, w) := by
  have hcompile : s.compile text page = .error e := by
    rw [Session.compile, h]
    rfl
  rw [search, hcompile]
  rfl

/-- The query for a page of what the session finds. -/
def pageQuery (s : Session) (predicate : Predicate) (page : Nat) : ItemQuery :=
  ({ predicate, key := s.key, direction := s.direction } : ItemQuery).page page s.perPage

section

variable {s : Session} {predicate : Predicate} {page : Nat}

theorem result_eq_sorted (s : Session) (predicate : Predicate) (page : Nat) :
    s.result predicate = s.catalog.sorted (s.pageQuery predicate page) :=
  s.catalog.ids_unpaged (s.pageQuery predicate page)

theorem run_search_of_ok {text : String} (page : Nat)
    (h : compileText Attribute.all text s.viewer = .ok predicate) (w : World) :
    (s.search text page).run w =
      (.ok (), { w with
        out := w.out ++ printed (numbered (page * s.perPage) (s.result predicate).length
          (s.catalog.views (s.pageQuery predicate page))) }) := by
  have hcompile : s.compile text page = .ok (s.pageQuery predicate page) := by
    rw [Session.compile, h]
    rfl
  have hcount : s.catalog.count (s.pageQuery predicate page) = (s.result predicate).length := by
    rw [result_eq_sorted s predicate page, (s.catalog.sorted_perm_matching _).length_eq]
    rfl
  rw [search, hcompile]
  dsimp only
  rw [Task.run_bind, run_forM_printLine, pageLines, rowLines_eq_mapIdx, hcount]
  rfl

/-! ## Lemmas: rows -/

theorem length_result_lt (hsize : s.catalog.items.size < UInt64.size) (predicate : Predicate) :
    (s.result predicate).length < UInt64.size := by
  rw [result_eq_sorted s predicate 0]
  exact Nat.lt_of_le_of_lt (s.catalog.length_sorted_le _) hsize

/-- The pictures of the rows are a stretch of the whole result, without a gap. -/
theorem map_id_views (hc : s.catalog.Loadable) (hsize : s.catalog.items.size < UInt64.size)
    (predicate : Predicate) (page : Nat) :
    (s.catalog.views (s.pageQuery predicate page)).map ItemView.id =
      ((s.result predicate).drop (page * s.perPage)).take s.perPage := by
  rw [hc.built.map_id_views, pageQuery, Catalog.ids_page hsize, result_eq_sorted s predicate page]
  rfl

theorem place_of_row {rows : List ItemView}
    (hrows : rows.map ItemView.id = ((s.result predicate).drop (page * s.perPage)).take s.perPage)
    {i : Nat} {v : ItemView} (hv : rows[i]? = some v) :
    (s.result predicate)[page * s.perPage + i]? = some v.id := by
  have hid : (rows.map ItemView.id)[i]? = some v.id := by rw [List.getElem?_map, hv]; rfl
  rw [hrows, List.getElem?_take, List.getElem?_drop] at hid
  split at hid
  · exact hid
  · cases hid

end

/-! ## Top theorem -/

/-- **Rows are numbered by their places in the whole result.** -/
theorem search_rowNumbers (s : Session) (hc : s.catalog.Loadable)
    (hsize : s.catalog.items.size < UInt64.size) (text : String) (page : Nat) (w : World) :
    (∀ e, compileText Attribute.all text s.viewer = .error e →
      (s.search text page).run w = (.error e, w)) ∧
    (∀ predicate, compileText Attribute.all text s.viewer = .ok predicate →
      ∃ rows : List ItemView,
        (s.search text page).run w =
          (.ok (), { w with
            out := w.out ++
              printed (numbered (page * s.perPage) (s.result predicate).length rows) }) ∧
        rows.map ItemView.id = ((s.result predicate).drop (page * s.perPage)).take s.perPage ∧
        (∀ i v, rows[i]? = some v →
          page * s.perPage + i < UInt64.size ∧
            (s.result predicate)[page * s.perPage + i]? = some v.id ∧
              page * s.perPage + i < (s.result predicate).length) ∧
        (UInt64.size ≤ page * s.perPage → rows = [])) := by
  refine ⟨fun e h => run_search_of_error page h w, fun predicate h => ?_⟩
  have hrows := map_id_views hc hsize predicate page
  have hplace : ∀ i v, (s.catalog.views (s.pageQuery predicate page))[i]? = some v →
      page * s.perPage + i < UInt64.size ∧
        (s.result predicate)[page * s.perPage + i]? = some v.id ∧
          page * s.perPage + i < (s.result predicate).length := by
    intro i v hv
    have hat := place_of_row hrows hv
    have hlt := (List.getElem?_eq_some_iff.1 hat).1
    exact ⟨Nat.lt_trans hlt (length_result_lt hsize predicate), hat, hlt⟩
  refine ⟨_, run_search_of_ok page h w, hrows, hplace, ?_⟩
  intro hpast
  apply List.eq_nil_iff_forall_not_mem.2
  intro v hv
  obtain ⟨i, hi⟩ := List.mem_iff_getElem?.1 hv
  have := (hplace i v hi).1
  omega

/-- A session of viewer 2, who may see the pictures of both libraries. -/
def ratedSession (perPage : Nat) : Session :=
  { catalog := .withRated, viewer := ⟨2⟩, key := .rating, direction := .descending, perPage,
    saved := .empty, savedPath := none }

/-- A world without files, where a line is awaited. -/
def awaiting : World := { files := ⟨.empty⟩, out := prompt, err := "" }

/-- The last row of two pages has the last number; a page that starts past every word is empty. -/
theorem search_rowNumbers_rated :
    Catalog.withRated.Loadable ∧ Catalog.withRated.items.size < UInt64.size ∧
      (∃ v, ((ratedSession 1).search "" 1).run awaiting =
        (.ok (), { awaiting with out := prompt ++ printed (numbered 1 2 [v]) })) ∧
      ((ratedSession 2).search "" (2 ^ 63)).run awaiting =
        (.ok (), { awaiting with out := "> 0 of 2 matches\n" }) := by
  have hc : Catalog.withRated.Loadable := .calls (Catalog.built_build _)
  have hsize : Catalog.withRated.items.size < UInt64.size := by decide
  have hcompile : compileText Attribute.all "" ⟨2⟩ =
      .ok (.and [.test (.visible ⟨2⟩), .all]) := by rfl
  have htotal : ∀ perPage, ((ratedSession perPage).result
      (.and [.test (.visible ⟨2⟩), .all])).length = 2 := by
    intro perPage
    rw [result_eq_sorted _ _ 0, (Catalog.sorted_perm_matching _ _).length_eq]
    rfl
  refine ⟨hc, hsize, ?_, ?_⟩
  · obtain ⟨rows, hrun, hids, -, -⟩ :=
      (search_rowNumbers (ratedSession 1) hc hsize "" 1 awaiting).2 _ hcompile
    have hlength := congrArg List.length hids
    rw [List.length_map, List.length_take, List.length_drop, htotal] at hlength
    obtain ⟨v, rfl⟩ := List.length_eq_one_iff.1 hlength
    rw [htotal] at hrun
    exact ⟨v, hrun⟩
  · obtain ⟨rows, hrun, -, -, hpast⟩ :=
      (search_rowNumbers (ratedSession 2) hc hsize "" (2 ^ 63) awaiting).2 _ hcompile
    obtain rfl := hpast (by decide)
    rw [htotal] at hrun
    exact hrun

end Session

end PictureSearch

import PictureSearch.Proofs.Saved.History
import PictureSearch.Proofs.Session.Replay
import PictureSearch.Proofs.Session.RowNumbers

/-!
# Where saved searches come from

Saved searches are changed by saving and removing, and all of them at once by loading a file.  Each
search that is kept was brought by the last step that decided about its owner and name:

    (ofSteps steps).get? owner name = some query ↔
      LastWith (·.Brings owner name query) (·.Decides owner name) steps           (get?_ofSteps_iff)

Saving refuses a text that is no query; loading takes what the file holds.  So a search that is no
query was loaded, it can be any text at all, and running it reports what is wrong with the text.
Where no such file is loaded every search is a query, and running one fails at most for what it
asks.
-/

namespace PictureSearch

open Session

/-! ## Steps -/

/-- A step that changes saved searches, or tries to. -/
inductive SavedStep
  | call (c : SavedCall)
  /-- The file with a pathname is loaded, if there is one. -/
  | load (path : String) (files : Files)

namespace SavedSearches

/-- What loading a file gives. -/
def loaded? (path : String) (files : Files) : Option SavedSearches :=
  ((loadSaved (some path)).run ⟨files, "", ""⟩).1.toOption

/-- The searches after a step.  Those of a file take the place of all that were there; a file that
is not accepted leaves them. -/
def step (s : SavedSearches) : SavedStep → SavedSearches
  | .call c => (s.call c).1
  | .load path files => (loaded? path files).getD s

/-- The searches after steps from the empty store on. -/
def ofSteps (steps : List SavedStep) : SavedSearches := steps.foldl step empty

end SavedSearches

/-! ## Statements -/

/-- The step sees to what is kept there: a call as before, and a file that is accepted. -/
def SavedStep.Decides (owner : UInt64) (name : String) : SavedStep → Prop
  | .call c => c.Decides owner name
  | .load path files => ∃ s, files.Loads path s

/-- The search was in the file. -/
def SavedStep.Loads (st : SavedStep) (owner : UInt64) (name query : String) : Prop :=
  ∃ path files s, st = .load path files ∧ files.Loads path s ∧ s.get? owner name = some query

/-- The step saves the query with success, or loads it. -/
def SavedStep.Brings (st : SavedStep) (owner : UInt64) (name query : String) : Prop :=
  (st = .call (.save owner name query) ∧ Query.Parses query) ∨ st.Loads owner name query

/-- Every search is a query. -/
def SavedSearches.AllParse (s : SavedSearches) : Prop :=
  ∀ owner name query, s.get? owner name = some query → Query.Parses query

namespace SavedSearches

/-! ## Lemmas: one step -/

section

variable {s t : SavedSearches} {owner : UInt64} {name query path : String} {files : Files}

theorem loaded?_eq_some_iff : loaded? path files = some t ↔ files.Loads path t := by
  have hrun : ∀ w : World, w.files = files →
      ((loadSaved (some path)).run w).1 = ((loadSaved (some path)).run ⟨files, "", ""⟩).1 := by
    rintro w rfl
    rw [run_loadSaved, run_loadSaved]
  have htoOption : ∀ x : Except StopError SavedSearches, x.toOption = some t ↔ x = .ok t := by
    intro x
    cases x <;> simp [Except.toOption]
  unfold loaded? Files.Loads
  rw [htoOption]
  constructor
  · intro h w hw
    rw [hrun w hw, h]
  · exact fun h => h _ rfl

/-- A search is kept after a step if the step has brought it, or if it was kept and still is. -/
theorem get?_step_iff {st : SavedStep} :
    (s.step st).get? owner name = some query ↔
      st.Brings owner name query ∨ (s.get? owner name = some query ∧ ¬ st.Decides owner name) := by
  cases st with
  | call c =>
    have hloads : ¬ (SavedStep.call c).Loads owner name query := by
      rintro ⟨_, _, _, ⟨⟩, -⟩
    have hcall : SavedStep.call c = .call (.save owner name query) ↔
        c = .save owner name query := by simp
    show (s.call c).1.get? owner name = some query ↔ _
    rw [get?_call_iff, SavedStep.Brings, or_iff_left hloads, hcall]
    rfl
  | load path files =>
    have hbrings : (SavedStep.load path files).Brings owner name query ↔
        ∃ t, files.Loads path t ∧ t.get? owner name = some query := by
      constructor
      · rintro (⟨⟨⟩, -⟩ | ⟨_, _, t, ⟨⟩, h⟩)
        exact ⟨t, h⟩
      · rintro ⟨t, h⟩
        exact .inr ⟨path, files, t, rfl, h⟩
    rw [hbrings]
    show SavedSearches.get? ((loaded? path files).getD s) owner name = some query ↔
      _ ∨ _ ∧ ¬ ∃ t, files.Loads path t
    cases hfile : loaded? path files with
    | none =>
      have hnone : ¬ ∃ t, files.Loads path t := by
        rintro ⟨t, ht⟩
        rw [loaded?_eq_some_iff.2 ht] at hfile
        cases hfile
      have hleft : ¬ ∃ t, files.Loads path t ∧ t.get? owner name = some query :=
        fun ⟨t, ht, _⟩ => hnone ⟨t, ht⟩
      rw [or_iff_right hleft, and_iff_left hnone]
      rfl
    | some t =>
      have ht : files.Loads path t := loaded?_eq_some_iff.1 hfile
      have hright : ¬ (s.get? owner name = some query ∧ ¬ ∃ t, files.Loads path t) :=
        fun h => h.2 ⟨t, ht⟩
      rw [or_iff_left hright]
      constructor
      · exact fun h => ⟨t, ht, h⟩
      · rintro ⟨t', ht', h⟩
        obtain rfl : t' = t := ht'.unique ht
        exact h

end

/-! ## Lemmas: all steps -/

section

variable {steps : List SavedStep} {owner : UInt64} {name query : String}

theorem ofSteps_concat (steps : List SavedStep) (st : SavedStep) :
    ofSteps (steps ++ [st]) = (ofSteps steps).step st := by
  unfold ofSteps
  rw [List.foldl_append]
  rfl

theorem get?_ofSteps_iff :
    (ofSteps steps).get? owner name = some query ↔
      LastWith (·.Brings owner name query) (·.Decides owner name) steps := by
  have hstart : ¬ empty.get? owner name = some query := nofun
  exact foldl_iff_lastWith (fun s : SavedSearches => s.get? owner name = some query) step hstart
    (fun _ _ => get?_step_iff) steps

theorem loads_of_not_parses (h : (ofSteps steps).get? owner name = some query)
    (hquery : ¬ Query.Parses query) :
    LastWith (·.Loads owner name query) (·.Decides owner name) steps := by
  obtain ⟨before, st, later, hsteps, hst, hlater⟩ := get?_ofSteps_iff.1 h
  exact ⟨before, st, later, hsteps, hst.resolve_left fun h => hquery h.2, hlater⟩

theorem allParse_ofSteps
    (h : ∀ path files s, .load path files ∈ steps → files.Loads path s → s.AllParse) :
    (ofSteps steps).AllParse := by
  intro owner name query hget
  by_contra hquery
  obtain ⟨before, _, later, rfl, ⟨path, files, s, rfl, hloads, hs⟩, -⟩ :=
    loads_of_not_parses hget hquery
  exact hquery (h path files s (by simp) hloads owner name query hs)

/-- Any searches at all can be in a file. -/
theorem exists_loads (s : SavedSearches) : ∃ files : Files, files.Loads "saved.json" s := by
  have hwrites : Files.fresh.Replaceable "saved.json" "tmp" :=
    @Files.replaceable_of_replace _ [] _ _ (by decide +kernel)
  exact ⟨_, .of_read (hwrites.replace (Payload.Coder.utf8 s.toText)).1⟩

/-- Any text at all can be loaded as a search. -/
theorem exists_load (owner : UInt64) (name query : String) :
    ∃ path files, ∀ steps,
      (ofSteps (steps ++ [.load path files])).get? owner name = some query := by
  let kept : SavedSearches := ⟨SortedMap.empty.insert owner (SortedMap.empty.insert name query)⟩
  have hget : kept.get? owner name = some query := by
    rw [get?, ownedBy_insert, if_pos rfl, SortedMap.find?_insert, if_pos rfl]
  obtain ⟨files, hloads⟩ := exists_loads kept
  refine ⟨"saved.json", files, fun steps => ?_⟩
  rw [ofSteps_concat, step, loaded?_eq_some_iff.2 hloads]
  exact hget

end

end SavedSearches

/-! ## Lemmas: running a search -/

section

variable {s : Session} {name query : String} {e : Query.SyntaxError}

theorem compileText_eq_parsing_iff {exposed : List Attribute} {viewer : ViewerId} :
    compileText exposed query viewer = .error (.parsing e) ↔ Query.parse query = .error e := by
  unfold compileText
  cases Query.parse query with
  | error => simp
  | ok root =>
    dsimp only
    cases PictureSearch.compile exposed root viewer <;> simp [Except.mapError]

/-- A search that fails on its syntax is no query. -/
theorem run_search_eq_parsing_iff (s : Session) (query : String) (page : Nat) (w : World) :
    ((s.search query page).run w).1 = .error (.parsing e) ↔ Query.parse query = .error e := by
  rw [← @compileText_eq_parsing_iff _ _ Attribute.all s.viewer]
  cases hcompile : compileText Attribute.all query s.viewer with
  | error e =>
    rw [run_search_of_error page hcompile]
    simp
  | ok predicate =>
    rw [run_search_of_ok page hcompile]
    exact iff_of_false nofun nofun

theorem search_of_parses (h : Query.Parses query) (s : Session) (page : Nat) (w : World) :
    ((s.search query page).run w).1 = .ok () ∨
      ∃ e, ((s.search query page).run w).1 = .error (.execution e) := by
  rcases hrun : ((s.search query page).run w).1 with (e | e) | ⟨⟩
  · obtain ⟨root, hroot⟩ := h
    rw [run_search_eq_parsing_iff, hroot] at hrun
    cases hrun
  · exact .inr ⟨e, rfl⟩
  · exact .inl rfl

theorem run_report_of_error {e : QueryError} (page : Nat)
    (h : compileText Attribute.all query s.viewer = .error e) (w : World) :
    (s.report query page).run w =
      ((), { w with err := w.err ++ ("Failed to search: " ++ e.display ++ "\n") }) := by
  unfold report
  rw [Task.run_bind, run_search_of_error page h]
  rfl

end

/-! ## Top theorem -/

open SavedSearches

/-- **A search that is no query was loaded.**  All others were saved or loaded as queries, and
running them fails at most for what they ask. -/
theorem searches_parse_unless_loaded (steps : List SavedStep) :
    (∀ owner name query, (ofSteps steps).get? owner name = some query ↔
      LastWith (·.Brings owner name query) (·.Decides owner name) steps) ∧
    (∀ owner name query, (ofSteps steps).get? owner name = some query →
      Query.Parses query ∨ LastWith (·.Loads owner name query) (·.Decides owner name) steps) ∧
    ((∀ path files s, .load path files ∈ steps → files.Loads path s → s.AllParse) →
      (ofSteps steps).AllParse) ∧
    (∀ (s : Session) (name query : String) (w : World), s.saved = ofSteps steps →
      (ofSteps steps).get? s.viewer.number name = some query →
        (s.obey (.run name)).run w = (some s, ((s.report query 0).run w).2) ∧
        (Query.Parses query → ((s.search query 0).run w).1 = .ok () ∨
          ∃ e, ((s.search query 0).run w).1 = .error (.execution e)) ∧
        (∀ e, Query.parse query = .error e → ((s.report query 0).run w).2 =
          { w with
            err := w.err ++ ("Failed to search: " ++ (QueryError.parsing e).display ++ "\n") })) ∧
    (∀ owner name query, ∃ path files,
      (ofSteps (steps ++ [.load path files])).get? owner name = some query) := by
  refine ⟨fun _ _ _ => get?_ofSteps_iff, ?_, allParse_ofSteps, ?_, ?_⟩
  · intro owner name query h
    by_cases hquery : Query.Parses query
    · exact .inl hquery
    · exact .inr (loads_of_not_parses h hquery)
  · intro s name query w hsaved hget
    rw [← hsaved] at hget
    refine ⟨?_, ?_, ?_⟩
    · exact run_obey_run hget
    · exact fun hquery => search_of_parses hquery s 0 w
    · intro e he
      exact congrArg Prod.snd (run_report_of_error 0 (compileText_eq_parsing_iff.2 he) w)
  · intro owner name query
    obtain ⟨path, files, h⟩ := exists_load owner name query
    exact ⟨path, files, h steps⟩

/-- A file with a search that is no query: a value is missing. -/
def brokenFiles : Files :=
  Files.fresh.add "saved.json" (Payload.Coder.utf8
    "\x7b\"owners\":\x7b\"1\":\x7b\"broken\":\"width>\"\x7d\x7d\x7d")

/-- Viewer 1 saves a search, loads the file, and saves another one. -/
def brokenSteps : List SavedStep :=
  [.call (.save 1 "wide" "aspect=10"), .load "saved.json" brokenFiles,
    .call (.save 1 "tall" "aspect<10")]

/-- A session of viewer 1 with these searches. -/
def brokenSession : Session :=
  { catalog := .withRated, viewer := ⟨1⟩, key := .name, direction := .ascending, perPage := 20,
    saved := ofSteps brokenSteps, savedPath := none }

theorem get?_brokenSteps : (ofSteps brokenSteps).get? 1 "broken" = some "width>" := by
  decide +kernel

theorem parse_broken : Query.parse "width>" = .error ⟨.missingValue .gt, 6⟩ := by
  decide +kernel

/-- A file that is written for searches that parse is loaded without harm. -/
theorem searches_parse_unless_loaded_broken :
    (brokenSession.obey (.run "broken")).run awaiting = (some brokenSession,
        { awaiting with err :=
          "Failed to search: syntax error: missing value after '>' (at byte 6)\n" }) ∧
      LastWith (·.Loads 1 "broken" "width>") (·.Decides 1 "broken") brokenSteps ∧
        ∃ files, files.Loads "saved.json" (ofCalls forgottenWide) ∧
          (ofSteps [.call (.save 1 "tall" "aspect<10"), .load "saved.json" files]).AllParse := by
  obtain ⟨-, horigin, -, hrun, -⟩ := searches_parse_unless_loaded brokenSteps
  have hbroken : ¬ Query.Parses "width>" := by
    rintro ⟨root, hroot⟩
    rw [parse_broken] at hroot
    cases hroot
  obtain ⟨hobey, -, hreport⟩ := hrun brokenSession "broken" "width>" awaiting rfl get?_brokenSteps
  refine ⟨?_, (horigin 1 "broken" "width>" get?_brokenSteps).resolve_left hbroken, ?_⟩
  · rw [hobey, hreport _ parse_broken]
    rfl
  · obtain ⟨files, hloads⟩ := exists_loads (ofCalls forgottenWide)
    refine ⟨files, hloads, (searches_parse_unless_loaded _).2.2.1 ?_⟩
    intro path files' s hmem hs
    obtain ⟨rfl, rfl⟩ : path = "saved.json" ∧ files' = files := by simpa using hmem
    obtain rfl : s = ofCalls forgottenWide := hs.unique hloads
    exact (follows_ofCalls forgottenWide).parses

/-- Not every search that is kept is a query. -/
theorem not_forall_searches_parse :
    (ofSteps brokenSteps).get? 1 "broken" = some "width>" ∧ ¬ (ofSteps brokenSteps).AllParse ∧
      ((brokenSession.search "width>" 0).run awaiting).1 =
        .error (.parsing ⟨.missingValue .gt, 6⟩) := by
  refine ⟨get?_brokenSteps, ?_, (run_search_eq_parsing_iff _ _ _ _).2 parse_broken⟩
  intro h
  obtain ⟨root, hroot⟩ := h 1 "broken" "width>" get?_brokenSteps
  rw [parse_broken] at hroot
  cases hroot

end PictureSearch

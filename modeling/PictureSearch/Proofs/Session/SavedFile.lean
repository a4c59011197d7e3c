import PictureSearch.Proofs.Payload.Coder
import PictureSearch.Proofs.Saved.File
import PictureSearch.Proofs.Saved.Owners
import PictureSearch.Proofs.Session.Files
import PictureSearch.Proofs.Session.Tasks

/-!
# The file of saved searches keeps up

A session writes its saved searches whenever a command changes them, so that between any two
commands their file holds the searches of the session, and a session started on the same files goes
on with them:

    s₀.After w lines s v → ∃ saved, v.files.Loads path saved ∧ v.files.Resumes path saved ∧
      (∀ owner name, saved.get? owner name = s.saved.get? owner name) ∧
        (¬ s₀.saved.Bare s₀.viewer.number → saved = s.saved) ∧ …             (savedFile_keepsUp)

One change is not written: an owner that the file names without any search goes when one of its
searches is looked for in vain (`exists_lagging`).  `Moves` says what a command can do, and
`KeepsUp` is what it preserves.
-/

namespace PictureSearch

open Session

/-! ## Statements -/

namespace Session

/-- One line is prompted for and answered. -/
def turn (s : Session) (line : List UInt8) : Task (Except Ending Session) := do
  Task.printText prompt
  s.hear line

/-- The session that awaits a line once it has taken these, and what it has done to the world. -/
inductive After (s₀ : Session) (w₀ : World) : List (List UInt8) → Session → World → Prop
  | nothing : After s₀ w₀ [] s₀ w₀
  | line {lines s w line s' w'} :
      After s₀ w₀ lines s w → (s.turn line).run w = (.ok s', w') →
        After s₀ w₀ (lines ++ [line]) s' w'

/-- The session ends before all further lines, or with the first of them. -/
def Ends (s : Session) (w : World) : List (List UInt8) → Prop
  | [] => True
  | line :: _ => ∃ e, ((s.turn line).run w).1 = .error e

/-- The file is loaded as these searches. -/
def Files.Loads (fs : Files) (path : String) (saved : SavedSearches) : Prop :=
  ∀ w : World, w.files = fs → ((loadSaved (some path)).run w).1 = .ok saved

/-- A session that is started on these files, and can be, has these searches. -/
def Files.Resumes (fs : Files) (path : String) (saved : SavedSearches) : Prop :=
  ∀ (o : Options) (w w' : World) (catalog : Catalog), w.files = fs → o.saved = some path →
    o.query = none → OrderKey.ofText? o.order ≠ none → (loadCatalog o).run w = (.ok catalog, w') →
      w'.files.read path = w.files.read path →
        ∃ s, (start o).run w = (.ok s, w') ∧ s.saved = saved

/-! ## Steps -/

/-- The files after the saved searches were written. -/
def stored (s : Session) (fs : Files) : Files :=
  match s.savedPath with
  | none => fs
  | some path => (fs.replace path "tmp" (Payload.Coder.utf8 s.saved.toText)).1

/-- What a command makes of a session and of the files. -/
inductive Moves (s : Session) (fs : Files) : Option Session → Files → Prop
  | ended : Moves s fs none fs
  | stayed : Moves s fs (some s) fs
  | changed {saved : SavedSearches} :
      ¬ saved.Bare s.viewer.number →
        Moves s fs (some { s with saved }) (stored { s with saved } fs)
  /-- Looking in vain for a search to remove lets an owner without searches go. -/
  | missed {name : String} :
      s.saved.get? s.viewer.number name = none →
        Moves s fs (some { s with saved := (s.saved.remove s.viewer.number name).1 }) fs

/-- The file holds the searches of the session, and perhaps an owner that had none at the start. -/
structure KeepsUp (s s₀ : Session) (path : String) (fs : Files) : Prop where
  viewer : s.viewer = s₀.viewer
  savedPath : s.savedPath = some path
  replaceable : fs.Replaceable path "tmp"
  file : ∃ m, fs.Loads path m ∧ (m.Bare s₀.viewer.number → s₀.saved.Bare s₀.viewer.number) ∧
    (m = s.saved ∨ m.Bare s₀.viewer.number ∧ s.saved = m.without s₀.viewer.number)

/-! ## Lemmas: commands -/

section

variable (s : Session) (w : World)

theorem run_persist : (s.persist.run w).2.files = s.stored w.files := by
  unfold persist stored
  cases s.savedPath with
  | none => rfl
  | some path =>
    dsimp only
    rw [Task.run_bind, Task.run_replaceFile]
    generalize w.files.replace path "tmp" (Payload.Coder.utf8 s.saved.toText) = r
    obtain ⟨files, _ | failure⟩ := r <;> rfl

theorem moves_of_quiet {t : Task Unit} (h : t.Quiet) :
    s.Moves w.files ((do t; return some s : Task (Option Session)).run w).1
      ((do t; return some s : Task (Option Session)).run w).2.files := by
  rw [Task.run_bind]
  show s.Moves w.files (some s) (t.run w).2.files
  rw [h]
  exact .stayed

theorem moves_of_persist {saved : SavedSearches} (h : ¬ saved.Bare s.viewer.number)
    (line : String) :
    let s' := { s with saved }
    let t : Task (Option Session) := do Task.printLine line; s'.persist; return some s'
    s.Moves w.files (t.run w).1 (t.run w).2.files := by
  intro s' t
  have hfiles : (t.run w).2.files = s'.stored w.files := by
    show ((Task.printLine line >>= fun _ => s'.persist >>= fun _ => pure (some s')).run w).2.files = _
    rw [Task.run_bind, Task.run_bind, Task.run_pure, run_persist]
    rfl
  have hnext : (t.run w).1 = some s' := by
    show ((Task.printLine line >>= fun _ => s'.persist >>= fun _ => pure (some s')).run w).1 = _
    rw [Task.run_bind, Task.run_bind, Task.run_pure]
  rw [hfiles, hnext]
  exact .changed h

theorem moves_obey (c : Command) :
    s.Moves w.files ((s.obey c).run w).1 ((s.obey c).run w).2.files := by
  cases c with
  | bye => exact .ended
  | query text => exact s.moves_of_quiet w (s.quiet_report text 0)
  | page page text => exact s.moves_of_quiet w (s.quiet_report text page)
  | ast text =>
    dsimp only [obey]
    cases Query.parse text with
    | ok root => exact s.moves_of_quiet w (Task.quiet_printLine _)
    | error e => exact s.moves_of_quiet w (Task.quiet_complainLine _)
  | save name text =>
    dsimp only [obey]
    cases hsave : s.saved.save s.viewer.number name text with
    | error e => exact s.moves_of_quiet w (Task.quiet_complainLine _)
    | ok r =>
      obtain ⟨saved, previous⟩ := r
      have hbare := SavedSearches.not_bare_save hsave
      cases previous with
      | some previous => exact s.moves_of_persist w hbare _
      | none => exact s.moves_of_persist w hbare _
  | run name =>
    dsimp only [obey]
    cases s.saved.get? s.viewer.number name with
    | some text => exact s.moves_of_quiet w (s.quiet_report text 0)
    | none => exact s.moves_of_quiet w (Task.quiet_complainLine _)
  | saved => exact s.moves_of_quiet w (Task.quiet_forM fun _ => Task.quiet_printLine _)
  | forget name =>
    dsimp only [obey]
    rcases hremove : s.saved.remove s.viewer.number name with ⟨saved, dropped⟩
    have hsaved : (s.saved.remove s.viewer.number name).1 = saved := congrArg Prod.fst hremove
    have hdropped : s.saved.get? s.viewer.number name = dropped := congrArg Prod.snd hremove
    cases dropped with
    | some query =>
      have hbare := s.saved.not_bare_remove s.viewer.number name
      rw [hsaved] at hbare
      exact s.moves_of_persist w hbare _
    | none =>
      have hmissed := @Moves.missed s w.files name hdropped
      rw [hsaved] at hmissed
      exact hmissed
  | invalid e => exact s.moves_of_quiet w (Task.quiet_complainLine _)

theorem moves_answer (line : String) :
    s.Moves w.files ((s.answer line).run w).1 ((s.answer line).run w).2.files := by
  unfold answer
  dsimp only
  split
  · exact .stayed
  · exact s.moves_obey w _

/-- The world in which a line is answered. -/
def World.prompted : World := { w with out := w.out ++ prompt }

theorem run_turn_of_ofUtf8? {bytes : List UInt8} {line : String}
    (h : Payload.Coder.ofUtf8? bytes = some line) :
    (s.turn bytes).run w =
      ((((s.answer line).run w.prompted).1.map .ok).getD (.error .finished),
        ((s.answer line).run w.prompted).2) := by
  show (s.hear bytes).run w.prompted = _
  unfold hear
  rw [h]
  dsimp only
  rw [Task.run_bind]
  generalize (s.answer line).run w.prompted = r
  obtain ⟨_ | s', w'⟩ := r <;> rfl

theorem moves_turn (bytes : List UInt8) :
    s.Moves w.files ((s.turn bytes).run w).1.toOption ((s.turn bytes).run w).2.files := by
  cases h : Payload.Coder.ofUtf8? bytes with
  | none =>
    show s.Moves w.files ((s.hear bytes).run w.prompted).1.toOption
      ((s.hear bytes).run w.prompted).2.files
    unfold hear
    rw [h]
    exact .ended
  | some line =>
    rw [s.run_turn_of_ofUtf8? w h]
    have hmoves := s.moves_answer w.prompted line
    generalize (s.answer line).run w.prompted = r at hmoves ⊢
    obtain ⟨_ | s', w'⟩ := r
    · exact hmoves
    · exact hmoves

end

/-! ## Lemmas: lines -/

theorem Moves.files_of_ended {s : Session} {fs fs' : Files} (h : s.Moves fs none fs') :
    fs' = fs := by
  cases h
  rfl

theorem Files.Loads.of_read {fs : Files} {path : String} {saved : SavedSearches}
    (h : fs.read path = .content (Payload.Coder.utf8 saved.toText)) : fs.Loads path saved := by
  rintro w rfl
  rw [run_loadSaved, h]
  simp only [savedOf, Payload.Coder.ofUtf8?_utf8, SavedSearches.ofText?_toText]

theorem KeepsUp.moves {s₀ s s' : Session} {path : String} {fs fs' : Files}
    (h : s.KeepsUp s₀ path fs) (hmoves : s.Moves fs (some s') fs') : s'.KeepsUp s₀ path fs' := by
  obtain ⟨hviewer, hpath, hwrites, m, hm, hbare, hkept⟩ := h
  cases hmoves with
  | stayed => exact ⟨hviewer, hpath, hwrites, m, hm, hbare, hkept⟩
  | @changed saved hnot =>
    have hstored : stored { s with saved } fs =
        (fs.replace path "tmp" (Payload.Coder.utf8 saved.toText)).1 := by
      unfold stored
      simp only [hpath]
    obtain ⟨hread, hwrites'⟩ := hwrites.replace (Payload.Coder.utf8 saved.toText)
    rw [hstored]
    rw [hviewer] at hnot
    exact ⟨hviewer, hpath, hwrites', saved, .of_read hread, fun h => absurd h hnot, .inl rfl⟩
  | @missed name hname =>
    rw [hviewer] at hname
    refine ⟨hviewer, hpath, hwrites, m, hm, hbare, ?_⟩
    show _ = (s.saved.remove s.viewer.number name).1 ∨ _ ∧ (s.saved.remove s.viewer.number name).1 = _
    rw [hviewer]
    rcases hkept with rfl | ⟨hm, hsaved⟩
    · by_cases hnot : s.saved.Bare s₀.viewer.number
      · exact .inr ⟨hnot, SavedSearches.remove_of_bare hnot name⟩
      · exact .inl (SavedSearches.remove_of_missing hname hnot).symm
    · have hnot : ¬ s.saved.Bare s₀.viewer.number := by
        rw [hsaved]
        exact m.not_bare_without _
      rw [SavedSearches.remove_of_missing hname hnot]
      exact .inr ⟨hm, hsaved⟩

/-! ## Lemmas: whole sessions -/

section

variable {s₀ s s' : Session} {w₀ w w' : World} {path : String} {line : List UInt8}
  {lines rest : List (List UInt8)}

theorem run_converse_of_ok (h : (s.turn line).run w = (.ok s', w')) :
    (s.converse (line :: rest)).run w = (s'.converse rest).run w' := by
  unfold turn at h
  rw [converse]
  rw [Task.run_bind] at h ⊢
  rw [Task.run_bind, h]

theorem run_converse_of_error {e : Ending} (h : (s.turn line).run w = (.error e, w')) :
    (s.converse (line :: rest)).run w = (e, w') := by
  unfold turn at h
  rw [converse]
  rw [Task.run_bind] at h ⊢
  rw [Task.run_bind, h]
  rfl

theorem After.run_converse (h : s₀.After w₀ lines s w) (rest : List (List UInt8)) :
    (s₀.converse (lines ++ rest)).run w₀ = (s.converse rest).run w := by
  induction h generalizing rest with
  | nothing => rfl
  | line _ hturn ih =>
    rw [List.append_assoc, ih, List.singleton_append, run_converse_of_ok hturn]

theorem After.keepsUp (h : s₀.After w₀ lines s w) (h₀ : s₀.KeepsUp s₀ path w₀.files) :
    s.KeepsUp s₀ path w.files := by
  induction h with
  | nothing => exact h₀
  | @line _ s w line s' w' _ hturn ih =>
    have hmoves := s.moves_turn w line
    rw [hturn] at hmoves
    exact ih.moves hmoves

theorem ends_bye (s : Session) (w : World) (rest : List (List UInt8)) :
    s.Ends w (Payload.Coder.utf8 "/bye" :: rest) := by
  have hline : (Text.trim "/bye").isEmpty = false ∧ Command.ofLine (Text.trim "/bye") = .bye := by
    decide +kernel
  refine ⟨.finished, ?_⟩
  rw [s.run_turn_of_ofUtf8? w (Payload.Coder.ofUtf8?_utf8 _), answer, hline.1, hline.2]
  rfl

theorem Ends.files (h : s.Ends w rest) : ((s.converse rest).run w).2.files = w.files := by
  cases rest with
  | nil => rfl
  | cons line rest =>
    obtain ⟨e, he⟩ := h
    have hmoves := s.moves_turn w line
    rcases hturn : (s.turn line).run w with ⟨r, w'⟩
    rw [hturn] at he hmoves
    obtain rfl : r = .error e := he
    rw [run_converse_of_error hturn]
    exact hmoves.files_of_ended

theorem run_whole {o : Options} {input : List UInt8} (h : (start o).run w₀ = (.ok s, w)) :
    ((whole o input).run w₀).2.files = ((s.converse (inputLines input)).run w).2.files := by
  unfold whole
  rw [Task.run_bind, h]
  dsimp only
  rw [Task.run_bind, quiet_close]

theorem Files.Loads.resumes {fs : Files} {saved : SavedSearches} (h : fs.Loads path saved) :
    fs.Resumes path saved := by
  rintro o w w' catalog rfl hpath hquery hkey hcatalog hread
  obtain ⟨key, hkey⟩ := Option.ne_none_iff_exists'.1 hkey
  have hsaved : ((loadSaved o.saved).run w').1 = .ok saved := by
    rw [hpath, run_loadSaved, hread]
    have := h w rfl
    rwa [run_loadSaved] at this
  exact ⟨_, run_start_eq_ok_iff.2 ⟨catalog, key, saved, hcatalog, hkey, hquery, hsaved, rfl⟩, rfl⟩

theorem loads_of_start {o : Options} (hpath : o.saved = some path)
    (hstart : (start o).run w₀ = (.ok s, w)) : w.files.Loads path s.saved := by
  obtain ⟨catalog, key, saved, -, -, -, hsaved, rfl⟩ := run_start_eq_ok_iff.1 hstart
  intro v hv
  rw [hpath, run_loadSaved] at hsaved
  rwa [run_loadSaved, hv]

theorem savedPath_of_start {o : Options} (hstart : (start o).run w₀ = (.ok s, w)) :
    s.savedPath = o.saved := by
  obtain ⟨_, _, _, -, -, -, -, rfl⟩ := run_start_eq_ok_iff.1 hstart
  rfl

theorem keepsUp_of_start {o : Options} (hpath : o.saved = some path)
    (hstart : (start o).run w₀ = (.ok s, w)) (hwrites : w.files.Replaceable path "tmp") :
    s.KeepsUp s path w.files where
  viewer := rfl
  savedPath := (savedPath_of_start hstart).trans hpath
  replaceable := hwrites
  file := ⟨s.saved, loads_of_start hpath hstart, fun h => h, .inl rfl⟩

end

/-! ## Lemmas: looking in vain -/

theorem Files.Loads.unique {fs : Files} {path : String} {m m' : SavedSearches}
    (h : fs.Loads path m) (h' : fs.Loads path m') : m = m' :=
  Except.ok.inj ((h ⟨fs, "", ""⟩ rfl).symm.trans (h' ⟨fs, "", ""⟩ rfl))

theorem run_turn_forget {s : Session} (w : World) (h : s.saved.get? s.viewer.number "x" = none) :
    (s.turn (Payload.Coder.utf8 "/forget x")).run w =
      (.ok { s with saved := (s.saved.remove s.viewer.number "x").1 },
        { w with out := w.out ++ prompt, err := w.err ++ (unknownName "x" ++ "\n") }) := by
  have hline : (Text.trim "/forget x").isEmpty = false ∧
      Command.ofLine (Text.trim "/forget x") = .forget "x" := by
    decide +kernel
  have hdropped : (s.saved.remove s.viewer.number "x").2 = none := h
  rw [s.run_turn_of_ofUtf8? w (Payload.Coder.ofUtf8?_utf8 _), answer, hline.1, hline.2]
  dsimp only [obey]
  rw [hdropped]
  rfl

/-- A session that looks in vain for a search of its viewer, whom its file names without any, has
lost the viewer, and its file has not. -/
theorem exists_lagging {s₀ : Session} {w : World} {path : String}
    (hloads : w.files.Loads path s₀.saved) (hbare : s₀.saved.Bare s₀.viewer.number) :
    ∃ s v, s₀.After w [Payload.Coder.utf8 "/forget x"] s v ∧
      v.files.Loads path s₀.saved ∧ s₀.saved ≠ s.saved := by
  have hnone : s₀.saved.get? s₀.viewer.number "x" = none := by
    unfold SavedSearches.get?
    rw [SavedSearches.ownedBy_of_find? hbare]
    rfl
  refine ⟨_, _, .line .nothing (run_turn_forget w hnone), hloads, ?_⟩
  intro (h : s₀.saved = (s₀.saved.remove s₀.viewer.number "x").1)
  have hgone := s₀.saved.not_bare_remove s₀.viewer.number "x"
  rw [← h] at hgone
  exact hgone hbare

/-! ## Top theorem -/

/-- **The file of saved searches keeps up.**  Saved searches are read back from their text, and
between any two commands the file holds the searches of the session.  Only where it named the viewer
without any search at the start may the file differ, in that the viewer stays there longer, and then
there are lines after which it does. -/
theorem savedFile_keepsUp (o : Options) (path : String) :
    (∀ saved : SavedSearches, SavedSearches.ofText? saved.toText = some saved) ∧
      ∀ (w₀ w : World) (s₀ : Session), o.saved = some path →
        (start o).run w₀ = (.ok s₀, w) → w.files.Replaceable path "tmp" →
          (∀ lines s v, s₀.After w lines s v →
            ∃ saved, v.files.Loads path saved ∧ v.files.Resumes path saved ∧
              (∀ owner name, saved.get? owner name = s.saved.get? owner name) ∧
              (¬ s₀.saved.Bare s₀.viewer.number → saved = s.saved) ∧
              ∀ input rest, inputLines input = lines ++ rest → s.Ends v rest →
                ((whole o input).run w₀).2.files = v.files) ∧
          (s₀.saved.Bare s₀.viewer.number →
            ∃ lines s v, s₀.After w lines s v ∧ ¬ v.files.Loads path s.saved) := by
  refine ⟨SavedSearches.ofText?_toText, ?_⟩
  intro w₀ w s₀ hpath hstart hwrites
  have hstarted := keepsUp_of_start hpath hstart hwrites
  refine ⟨?_, ?_⟩
  · intro lines s v hafter
    obtain ⟨saved, hloads, hbare, hsaved⟩ := (hafter.keepsUp hstarted).file
    refine ⟨saved, hloads, hloads.resumes, ?_, ?_, ?_⟩
    · intro owner name
      rcases hsaved with rfl | ⟨h, hs⟩
      · rfl
      · rw [hs, SavedSearches.get?_without h]
    · intro hnot
      exact hsaved.resolve_right fun h => hnot (hbare h.1)
    · intro input rest hinput hends
      rw [run_whole hstart, hinput, hafter.run_converse, hends.files]
  · intro hbare
    obtain ⟨s, v, hafter, hloads, hne⟩ := exists_lagging (loads_of_start hpath hstart) hbare
    exact ⟨_, s, v, hafter, fun h => hne (hloads.unique h)⟩

/-- Files of a catalog without records and of saved searches that keep the owner 0 without any. -/
def bareFiles : Files :=
  (Files.fresh.add "catalog.json" (Payload.Coder.utf8 "\x7b\x7d")).add "saved.json"
    (Payload.Coder.utf8 "\x7b\"owners\":\x7b\"0\":\x7b\x7d\x7d\x7d")

def bareWorld : World := ⟨bareFiles, "", ""⟩

def optionsOf (viewer : UInt64) : Options :=
  { catalog := "catalog.json", viewer, perPage := 20, order := "name", descending := false,
    saved := some "saved.json", cache := none, query := none }

/-- What holds of the session that a task leads to. -/
def leadsTo (t : Task (Except Ending Session)) (w : World) (test : Session → World → Bool) : Bool :=
  match t.run w with
  | (.ok s, v) => test s v
  | (.error _, _) => false

theorem exists_of_leadsTo {t : Task (Except Ending Session)} {w : World}
    {test : Session → World → Bool} (h : leadsTo t w test = true) :
    ∃ s v, t.run w = (.ok s, v) ∧ test s v = true := by
  unfold leadsTo at h
  split at h
  · next s v hrun => exact ⟨s, v, hrun, h⟩
  · cases h

/-- Another viewer's session: the owner without searches stays in the store and in the file. -/
theorem savedFile_keepsUp_wideSaved :
    ∃ s₀ w s v, (start (optionsOf 1)).run bareWorld = (.ok s₀, w) ∧
      s₀.After w [Payload.Coder.utf8 "/save wide aspect=10"] s v ∧
        s.saved.owners.keys = [0, 1] ∧ s.saved.get? 1 "wide" = some "aspect=10" ∧
          v.files.Loads "saved.json" s.saved ∧
            ((whole (optionsOf 1) (Payload.Coder.utf8 "/save wide aspect=10\n/bye\n")).run
              bareWorld).2.files = v.files := by
  have hrun : leadsTo (start (optionsOf 1)) bareWorld (fun s₀ w =>
      (w.files.replace "saved.json" "tmp" []).2 == none && s₀.viewer.number == 1 &&
        s₀.saved.owners.keys == [0] &&
          leadsTo (s₀.turn (Payload.Coder.utf8 "/save wide aspect=10")) w fun s _ =>
            s.saved.owners.keys == [0, 1] && s.saved.get? 1 "wide" == some "aspect=10") = true := by
    decide +kernel
  have hinput : inputLines (Payload.Coder.utf8 "/save wide aspect=10\n/bye\n") =
      [Payload.Coder.utf8 "/save wide aspect=10"] ++ [Payload.Coder.utf8 "/bye"] := by
    decide +kernel
  obtain ⟨s₀, w, hstart, hs₀⟩ := exists_of_leadsTo hrun
  simp only [Bool.and_eq_true, beq_iff_eq] at hs₀
  obtain ⟨⟨⟨hwrites, hviewer⟩, hstored⟩, hturn⟩ := hs₀
  obtain ⟨s, v, hturn, hs⟩ := exists_of_leadsTo hturn
  simp only [Bool.and_eq_true, beq_iff_eq] at hs
  have hafter : s₀.After w [Payload.Coder.utf8 "/save wide aspect=10"] s v := .line .nothing hturn
  have hbare : ¬ s₀.saved.Bare s₀.viewer.number := by
    rw [hviewer]
    intro h
    have hmem := SortedMap.mem_keys_iff.2 ⟨_, h⟩
    rw [hstored] at hmem
    exact absurd hmem (by decide)
  obtain ⟨saved, hloads, -, -, hsame, hends⟩ := ((savedFile_keepsUp (optionsOf 1) "saved.json").2
    bareWorld w s₀ rfl hstart (Files.replaceable_of_replace hwrites)).1 _ s v hafter
  exact ⟨s₀, w, s, v, hstart, hafter, hs.1, hs.2, hsame hbare ▸ hloads,
    hends _ _ hinput (s.ends_bye v [])⟩

/-- The viewer's own session: looking in vain for a search to remove lets the owner go from the
store, but the file is not written. -/
theorem savedFile_lagsBehind :
    ∃ s₀ w s v saved, (start (optionsOf 0)).run bareWorld = (.ok s₀, w) ∧
      w.files.Replaceable "saved.json" "tmp" ∧
        s₀.After w [Payload.Coder.utf8 "/forget x"] s v ∧
          v.files.Loads "saved.json" saved ∧ saved ≠ s.saved := by
  have hrun : leadsTo (start (optionsOf 0)) bareWorld (fun s₀ w =>
      (w.files.replace "saved.json" "tmp" []).2 == none && s₀.viewer.number == 0 &&
        (s₀.saved.owners.find? 0).any (·.isEmpty)) = true := by
    decide +kernel
  obtain ⟨s₀, w, hstart, hs₀⟩ := exists_of_leadsTo hrun
  simp only [Bool.and_eq_true, beq_iff_eq] at hs₀
  obtain ⟨⟨hwrites, hviewer⟩, hempty⟩ := hs₀
  have hbare : s₀.saved.Bare s₀.viewer.number := by
    rw [hviewer]
    exact SavedSearches.bare_of_isEmpty hempty
  obtain ⟨s, v, hafter, hloads, hne⟩ := exists_lagging (loads_of_start rfl hstart) hbare
  exact ⟨s₀, w, s, v, _, hstart, Files.replaceable_of_replace hwrites, hafter, hloads, hne⟩

end Session

end PictureSearch

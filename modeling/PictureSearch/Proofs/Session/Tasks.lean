import PictureSearch.Session.Conversation

/-!
# Carrying tasks out

A task followed by another is carried out one after the other (`run_bind`), and tasks that only read
and print leave the files as they are (`Quiet`).
-/

namespace PictureSearch.Session

namespace Task

variable {α β : Type}

/-- The task leaves the files as they are. -/
def Quiet (t : Task α) : Prop := ∀ w, (t.run w).2.files = w.files

/-! ## Lemmas: runs -/

@[simp] theorem run_pure (a : α) (w : World) : (pure a : Task α).run w = (a, w) := rfl

theorem run_replace (path extension : String) (content : List UInt8)
    (next : Option WriteFailure → Task α) (w : World) :
    (Task.replace path extension content next).run w =
      (next (w.files.replace path extension content).2).run
        { w with files := (w.files.replace path extension content).1 } := by
  rw [Task.run]

theorem run_bind (t : Task α) (f : α → Task β) (w : World) :
    (t >>= f).run w = (f (t.run w).1).run (t.run w).2 := by
  show (t.bind f).run w = _
  induction t generalizing w with
  | done => rfl
  | read path next ih => exact ih (w.files.read path) w
  | replace path extension content next ih =>
    rw [Task.bind, run_replace, run_replace, ih]
  | print text next ih => exact ih _
  | complain text next ih => exact ih _

@[simp] theorem run_readFile (path : String) (w : World) :
    (readFile path).run w = (w.files.read path, w) := rfl

@[simp] theorem run_replaceFile (path extension : String) (content : List UInt8) (w : World) :
    (replaceFile path extension content).run w =
      ((w.files.replace path extension content).2,
        { w with files := (w.files.replace path extension content).1 }) :=
  run_replace path extension content .done w

/-! ## Lemmas: quiet tasks -/

theorem quiet_pure (a : α) : (pure a : Task α).Quiet := fun _ => rfl

theorem quiet_printLine (line : String) : (printLine line).Quiet := fun _ => rfl

theorem quiet_complainLine (line : String) : (complainLine line).Quiet := fun _ => rfl

theorem Quiet.bind {t : Task α} {f : α → Task β} (ht : t.Quiet) (hf : ∀ a, (f a).Quiet) :
    (t >>= f).Quiet := by
  intro w
  rw [run_bind, hf, ht]

theorem quiet_forM {l : List α} {f : α → Task Unit} (hf : ∀ a, (f a).Quiet) : (l.forM f).Quiet := by
  induction l with
  | nil => exact quiet_pure ()
  | cons a l ih => exact (hf a).bind fun _ => ih

end Task

/-! ## Lemmas: what a session only reads and prints -/

theorem quiet_search (s : Session) (text : String) (page : Nat) : (s.search text page).Quiet := by
  unfold search
  split
  · exact Task.quiet_pure _
  · exact (Task.quiet_forM Task.quiet_printLine).bind fun _ => Task.quiet_pure _

theorem quiet_report (s : Session) (text : String) (page : Nat) : (s.report text page).Quiet := by
  refine (s.quiet_search text page).bind fun found => ?_
  cases found with
  | ok => exact Task.quiet_pure ()
  | error e => exact Task.quiet_complainLine _

theorem quiet_close (e : Ending) : e.close.Quiet := by
  cases e with
  | finished => exact Task.quiet_pure 0
  | failed e => exact (Task.quiet_complainLine _).bind fun _ => Task.quiet_pure 1

/-! ## Lemmas: loading saved searches -/

/-- What a file of saved searches is read as. -/
def savedOf (path : String) : Reading → Except StopError SavedSearches
  | .absent => .ok .empty
  | .unreadable => .error (.savedUnreadable path)
  | .content bytes =>
    match Payload.Coder.ofUtf8? bytes with
    | none => .error (.savedUnreadable path)
    | some text =>
      match SavedSearches.ofText? text with
      | none => .error .savedMalformed
      | some saved => .ok saved

theorem run_loadSaved (path : String) (w : World) :
    (loadSaved (some path)).run w = (savedOf path (w.files.read path), w) := by
  unfold loadSaved
  rw [Task.run_bind, Task.run_readFile]
  cases w.files.read path with
  | absent | unreadable => rfl
  | content bytes =>
    unfold savedOf
    dsimp only
    cases Payload.Coder.ofUtf8? bytes with
    | none => rfl
    | some text =>
      dsimp only
      cases SavedSearches.ofText? text <;> rfl

theorem run_loadSaved_snd (path : Option String) (w : World) : ((loadSaved path).run w).2 = w := by
  cases path with
  | none => rfl
  | some path => rw [run_loadSaved]

/-- A session starts with the saved searches that are found once the catalog is loaded. -/
theorem run_start_eq_ok_iff {o : Options} {w w' : World} {s : Session} :
    (start o).run w = (.ok s, w') ↔
      ∃ catalog key saved, (loadCatalog o).run w = (.ok catalog, w') ∧
        OrderKey.ofText? o.order = some key ∧ o.query = none ∧
          ((loadSaved o.saved).run w').1 = .ok saved ∧
            s = { catalog, viewer := ⟨o.viewer⟩, key,
                  direction := if o.descending then .descending else .ascending,
                  perPage := o.perPage, saved, savedPath := o.saved } := by
  unfold start
  rw [Task.run_bind]
  rcases (loadCatalog o).run w with ⟨e | catalog, w₁⟩
  · simp
  dsimp only
  cases OrderKey.ofText? o.order with
  | none => simp
  | some key =>
    dsimp only
    cases o.query with
    | some text =>
      dsimp only
      rw [Task.run_bind]
      split <;> simp
    | none =>
      dsimp only
      rw [Task.run_bind, run_loadSaved_snd]
      constructor
      · intro h
        split at h
        · cases h
        · next saved hsaved =>
          cases h
          exact ⟨catalog, key, saved, rfl, rfl, rfl, hsaved, rfl⟩
      · rintro ⟨_, _, saved, ⟨⟩, ⟨⟩, -, hsaved, rfl⟩
        rw [hsaved]
        rfl

end PictureSearch.Session

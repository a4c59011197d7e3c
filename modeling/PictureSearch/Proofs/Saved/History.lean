import Mathlib.Data.List.Induction
import PictureSearch.Payload.Coder
import PictureSearch.Proofs.Saved.Owners
import PictureSearch.Proofs.Search.Meaning
import PictureSearch.Saved.File

/-!
# Saved searches and the calls that made them

Saved searches are a function of the calls that made them from the empty store, and of nothing else:
what is kept under an owner and a name is the query that was last saved there, unless it was removed
since.  No two stores keep the same searches, so the bytes of their file are decided too.

    Follows (ofCalls calls) calls
    (∀ owner name, (ofCalls calls).get? owner name = (ofCalls others).get? owner name) →
      ofCalls calls = ofCalls others                                          (ofCalls_follows)

The second part rests on `Occupied`: an owner goes with the last of its searches.
-/

namespace PictureSearch

/-! ## Calls -/

/-- A call that changes saved searches, or tries to. -/
inductive SavedCall
  | save (owner : UInt64) (name query : String)
  | remove (owner : UInt64) (name : String)
  deriving DecidableEq, Repr

inductive SavedReply
  /-- The query that was there before, or why the new one is not saved. -/
  | saved (outcome : Except Query.SyntaxError (Option String))
  /-- The query that was there. -/
  | removed (query : Option String)

namespace SavedCall

def owner : SavedCall → UInt64
  | save owner _ _ => owner
  | remove owner _ => owner

def name : SavedCall → String
  | save _ name _ => name
  | remove _ name => name

end SavedCall

namespace SavedSearches

/-- The searches after a call, and its reply. -/
def call (s : SavedSearches) : SavedCall → SavedSearches × SavedReply
  | .save owner name query =>
    match s.save owner name query with
    | .ok (s, previous) => (s, .saved (.ok previous))
    | .error e => (s, .saved (.error e))
  | .remove owner name => ((s.remove owner name).1, .removed (s.remove owner name).2)

/-- The searches after calls from the empty store on. -/
def ofCalls (calls : List SavedCall) : SavedSearches :=
  calls.foldl (fun s c => (s.call c).1) empty

end SavedSearches

/-! ## Statements -/

/-- The text is that of a query. -/
def Query.Parses (text : String) : Prop := ∃ root, Query.parse text = .ok root

/-- The call removes what is kept there, or it saves a query there with success. -/
def SavedCall.Decides (c : SavedCall) (owner : UInt64) (name : String) : Prop :=
  c = .remove owner name ∨ ∃ query, Query.Parses query ∧ c = .save owner name query

/-- The query was saved there with success, and no later call removed it or saved another. -/
def LastSaved (calls : List SavedCall) (owner : UInt64) (name query : String) : Prop :=
  ∃ before later, calls = before ++ .save owner name query :: later ∧ Query.Parses query ∧
    ∀ c ∈ later, ¬ c.Decides owner name

/-- One of the steps is such, and none behind it decides. -/
def LastWith {σ : Type} (p decides : σ → Prop) (steps : List σ) : Prop :=
  ∃ before e later, steps = before ++ e :: later ∧ p e ∧ ∀ f ∈ later, ¬ decides f

/-- Every owner has a search. -/
def SavedSearches.Occupied (s : SavedSearches) : Prop :=
  ∀ owner m, s.owners.find? owner = some m → m.entries ≠ []

/-- What is seen of the searches, and the replies to further calls, are as the calls say. -/
structure SavedSearches.Follows (s : SavedSearches) (calls : List SavedCall) : Prop where
  get : ∀ owner name query,
    s.get? owner name = some query ↔ LastSaved calls owner name query
  saved : ∀ owner name query, Query.Parses query →
    (s.call (.save owner name query)).2 = .saved (.ok (s.get? owner name))
  refused : ∀ owner name query e, Query.parse query = .error e →
    s.call (.save owner name query) = (s, .saved (.error e))
  removed : ∀ owner name, (s.call (.remove owner name)).2 = .removed (s.get? owner name)
  separate : ∀ c : SavedCall, ∀ owner name, c.owner ≠ owner ∨ c.name ≠ name →
    (s.call c).1.get? owner name = s.get? owner name
  listed : ∀ owner name query, (name, query) ∈ s.list owner ↔ s.get? owner name = some query
  ordered : ∀ owner, (s.list owner).Pairwise fun a b => Text.Precedes a.1 b.1
  parses : ∀ owner name query, s.get? owner name = some query → Query.Parses query
  occupied : s.Occupied

namespace SavedSearches

/-! ## Lemmas: one call -/

section

variable {s t : SavedSearches} {owner : UInt64} {name query : String}

theorem parses_or_error (query : String) :
    Query.Parses query ∨ ∃ e, Query.parse query = .error e := by
  unfold Query.Parses
  cases Query.parse query with
  | ok root => exact .inl ⟨root, rfl⟩
  | error e => exact .inr ⟨e, rfl⟩

theorem call_save_of_error {e : Query.SyntaxError} (h : Query.parse query = .error e) :
    s.call (.save owner name query) = (s, .saved (.error e)) := by
  unfold call
  simp only [save, h]

theorem call_save_of_parses (h : Query.Parses query) :
    s.call (.save owner name query) =
      (⟨s.owners.insert owner ((s.ownedBy owner).insert name query)⟩,
        .saved (.ok (s.get? owner name))) := by
  obtain ⟨root, hroot⟩ := h
  unfold call
  simp only [save, hroot]

theorem get?_save (h : Query.Parses query) (other : UInt64) (n : String) :
    (s.call (.save owner name query)).1.get? other n =
      if other = owner ∧ n = name then some query else s.get? other n := by
  rw [call_save_of_parses h, get?, ownedBy_insert]
  by_cases ho : other = owner
  · rw [if_pos ho, SortedMap.find?_insert, ho]
    simp [get?]
  · simp [ho, get?]

theorem get?_remove (other : UInt64) (n : String) :
    (s.call (.remove owner name)).1.get? other n =
      if other = owner ∧ n = name then none else s.get? other n := by
  show SortedMap.find? ((s.remove owner name).1.ownedBy other) n = _
  rw [ownedBy_remove]
  by_cases ho : other = owner
  · rw [if_pos ho, SortedMap.find?_erase, ho]
    simp [get?]
  · simp [ho, get?]

theorem get?_of_not_decides {c : SavedCall} (h : ¬ c.Decides owner name) :
    (s.call c).1.get? owner name = s.get? owner name := by
  cases c with
  | save o n query =>
    rcases parses_or_error query with hq | ⟨e, he⟩
    · rw [get?_save hq]
      refine if_neg ?_
      rintro ⟨rfl, rfl⟩
      exact h (.inr ⟨query, hq, rfl⟩)
    · rw [call_save_of_error he]
  | remove o n =>
    rw [get?_remove]
    refine if_neg ?_
    rintro ⟨rfl, rfl⟩
    exact h (.inl rfl)

theorem not_decides_of_other {c : SavedCall} (h : c.owner ≠ owner ∨ c.name ≠ name) :
    ¬ c.Decides owner name := by
  rintro (rfl | ⟨query, -, rfl⟩)
  · exact h.elim (absurd rfl) (absurd rfl)
  · exact h.elim (absurd rfl) (absurd rfl)

/-- A query is kept after a call if the call has saved it, or if it was kept and still is. -/
theorem get?_call_iff {c : SavedCall} :
    (s.call c).1.get? owner name = some query ↔
      (c = .save owner name query ∧ Query.Parses query) ∨
        (s.get? owner name = some query ∧ ¬ c.Decides owner name) := by
  by_cases hc : c.Decides owner name
  · rw [or_iff_left fun h => h.2 hc]
    rcases hc with rfl | ⟨other, hother, rfl⟩
    · rw [get?_remove, if_pos ⟨rfl, rfl⟩]
      exact iff_of_false nofun fun h => nomatch h.1
    · rw [get?_save hother, if_pos ⟨rfl, rfl⟩]
      constructor
      · rintro ⟨⟩
        exact ⟨rfl, hother⟩
      · rintro ⟨⟨⟩, -⟩
        rfl
  · rw [get?_of_not_decides hc]
    constructor
    · exact fun h => .inr ⟨h, hc⟩
    · rintro (⟨rfl, hq⟩ | h)
      · exact absurd (.inr ⟨query, hq, rfl⟩) hc
      · exact h.1

/-! ## Lemmas: owners with searches -/

theorem occupied_empty : empty.Occupied := by
  intro owner m h
  cases h

theorem Occupied.insert (h : s.Occupied) {m : SortedMap String String} (hm : m.entries ≠ []) :
    Occupied ⟨s.owners.insert owner m⟩ := by
  intro other m' hm'
  rw [SortedMap.find?_insert] at hm'
  split at hm'
  · cases hm'
    exact hm
  · exact h other m' hm'

theorem Occupied.erase (h : s.Occupied) : Occupied ⟨s.owners.erase owner⟩ := by
  intro other m hm
  rw [SortedMap.find?_erase] at hm
  split at hm
  · cases hm
  · exact h other m hm

theorem Occupied.call (h : s.Occupied) (c : SavedCall) : (s.call c).1.Occupied := by
  cases c with
  | save owner name query =>
    rcases parses_or_error query with hq | ⟨e, he⟩
    · rw [call_save_of_parses hq]
      exact h.insert (SortedMap.entries_insert_ne_nil _ _ _)
    · rw [call_save_of_error he]
      exact h
  | remove owner name =>
    show Occupied ⟨if ((s.ownedBy owner).erase name).isEmpty then _ else _⟩
    by_cases hempty : ((s.ownedBy owner).erase name).isEmpty = true
    · rw [if_pos hempty]
      exact h.erase
    · rw [if_neg hempty]
      exact h.insert fun hnil => hempty (List.isEmpty_iff.2 hnil)

/-- An owner is known by its searches where none is without. -/
theorem Occupied.find?_owner (h : s.Occupied) (owner : UInt64) :
    s.owners.find? owner =
      if (s.ownedBy owner).isEmpty then none else some (s.ownedBy owner) := by
  cases hfind : s.owners.find? owner with
  | none =>
    rw [ownedBy_of_none hfind]
    rfl
  | some m =>
    rw [ownedBy_of_find? hfind, if_neg]
    exact fun hempty => h owner m hfind (List.isEmpty_iff.1 hempty)

/-- Two stores that keep the same searches are the same. -/
theorem ext_get? (hs : s.Occupied) (ht : t.Occupied)
    (h : ∀ owner name, s.get? owner name = t.get? owner name) : s = t := by
  have howned : ∀ owner, s.ownedBy owner = t.ownedBy owner := fun owner =>
    SortedMap.ext_find? (h owner)
  have howners : s.owners = t.owners := by
    apply SortedMap.ext_find?
    intro owner
    rw [hs.find?_owner, ht.find?_owner, howned]
  cases s
  cases t
  exact congrArg SavedSearches.mk howners

end

/-! ## Lemmas: the last step that decides -/

section

variable {σ τ : Type} {p decides : σ → Prop} {steps : List σ} {e : σ}

theorem not_lastWith_nil : ¬ LastWith p decides [] := by
  rintro ⟨before, e, later, h, -⟩
  exact List.append_ne_nil_of_right_ne_nil before (List.cons_ne_nil _ _) h.symm

theorem lastWith_concat_iff :
    LastWith p decides (steps ++ [e]) ↔ p e ∨ (LastWith p decides steps ∧ ¬ decides e) := by
  constructor
  · rintro ⟨before, first, later, h, hp, hlater⟩
    rcases List.eq_nil_or_concat later with rfl | ⟨later, last, rfl⟩
    · obtain rfl : e = first := (List.cons.inj (List.append_inj' h rfl).2).1
      exact .inl hp
    · rw [List.concat_eq_append] at h hlater
      rw [← List.cons_append, ← List.append_assoc] at h
      obtain ⟨rfl, hlast⟩ := List.append_inj' h rfl
      obtain rfl : e = last := (List.cons.inj hlast).1
      rw [List.forall_mem_append, List.forall_mem_singleton] at hlater
      exact .inr ⟨⟨before, first, later, rfl, hp, hlater.1⟩, hlater.2⟩
  · rintro (hp | ⟨⟨before, first, later, rfl, hp, hlater⟩, he⟩)
    · exact ⟨steps, e, [], rfl, hp, nofun⟩
    · refine ⟨before, first, later ++ [e], List.append_assoc _ _ _, hp, ?_⟩
      rw [List.forall_mem_append, List.forall_mem_singleton]
      exact ⟨hlater, he⟩

/-- What a step can bring about, and what it leaves unless it decides, holds at the end if a step
has brought it about and none behind it decides. -/
theorem foldl_iff_lastWith (holds : τ → Prop) (step : τ → σ → τ) {start : τ}
    (hstart : ¬ holds start) (hstep : ∀ t e, holds (step t e) ↔ p e ∨ (holds t ∧ ¬ decides e))
    (steps : List σ) :
    holds (steps.foldl step start) ↔ LastWith p decides steps := by
  induction steps using List.reverseRecOn with
  | nil => exact iff_of_false hstart not_lastWith_nil
  | append_singleton steps e ih =>
    rw [List.foldl_append, List.foldl_cons, List.foldl_nil, hstep, ih, lastWith_concat_iff]

end

/-! ## Lemmas: all calls -/

section

variable {calls : List SavedCall} {owner : UInt64} {name query : String}

theorem ofCalls_concat (calls : List SavedCall) (c : SavedCall) :
    ofCalls (calls ++ [c]) = ((ofCalls calls).call c).1 := by
  unfold ofCalls
  rw [List.foldl_append]
  rfl

theorem occupied_ofCalls (calls : List SavedCall) : (ofCalls calls).Occupied := by
  induction calls using List.reverseRecOn with
  | nil => exact occupied_empty
  | append_singleton calls c ih =>
    rw [ofCalls_concat]
    exact ih.call c

theorem lastSaved_iff :
    LastSaved calls owner name query ↔
      LastWith (fun c => c = .save owner name query ∧ Query.Parses query) (·.Decides owner name)
        calls := by
  constructor
  · rintro ⟨before, later, h, hq, hlater⟩
    exact ⟨before, _, later, h, ⟨rfl, hq⟩, hlater⟩
  · rintro ⟨before, _, later, h, ⟨rfl, hq⟩, hlater⟩
    exact ⟨before, later, h, hq, hlater⟩

theorem get?_ofCalls_iff :
    (ofCalls calls).get? owner name = some query ↔ LastSaved calls owner name query := by
  rw [lastSaved_iff]
  have hstart : ¬ empty.get? owner name = some query := nofun
  exact foldl_iff_lastWith (fun s : SavedSearches => s.get? owner name = some query)
    (fun s c => (s.call c).1) hstart (fun _ _ => get?_call_iff) calls

theorem follows_ofCalls (calls : List SavedCall) : (ofCalls calls).Follows calls where
  get _ _ _ := get?_ofCalls_iff
  saved _ _ _ hq := congrArg Prod.snd (call_save_of_parses hq)
  refused _ _ _ _ he := call_save_of_error he
  removed _ _ := rfl
  separate _ _ _ h := get?_of_not_decides (not_decides_of_other h)
  listed _ _ _ := SortedMap.find?_eq_some_iff.symm
  ordered owner := ((ofCalls calls).ownedBy owner).ascending.imp fun h =>
    (Catalog.compare_text_eq_lt_iff _ _).1 h
  parses _ _ _ h := by
    obtain ⟨_, _, -, hq, -⟩ := get?_ofCalls_iff.1 h
    exact hq
  occupied := occupied_ofCalls calls

end

/-! ## Top theorem -/

/-- **Saved searches are what their calls say.**  Each search is the one last saved under its owner
and name, and calls that leave the same searches leave the same store and the same file. -/
theorem ofCalls_follows (calls : List SavedCall) :
    (ofCalls calls).Follows calls ∧
      ∀ others : List SavedCall,
        (∀ owner name, (ofCalls calls).get? owner name = (ofCalls others).get? owner name) →
          ofCalls calls = ofCalls others ∧
            Payload.Coder.utf8 (ofCalls calls).toText =
              Payload.Coder.utf8 (ofCalls others).toText := by
  refine ⟨follows_ofCalls calls, ?_⟩
  intro others h
  have hsame : ofCalls calls = ofCalls others :=
    ext_get? (occupied_ofCalls calls) (occupied_ofCalls others) h
  exact ⟨hsame, by rw [hsame]⟩

/-- A search is saved and removed again, beside one that stays. -/
def forgottenWide : List SavedCall :=
  [.save 1 "wide" "aspect=10", .save 2 "best" "rating>=4", .remove 1 "wide"]

/-- The same search stays; the other one was never saved. -/
def refusedWide : List SavedCall :=
  [.save 2 "best" "rating=5", .save 2 "best" "rating>=4", .save 1 "wide" "width>"]

theorem ofCalls_follows_forgottenWide :
    LastSaved forgottenWide 2 "best" "rating>=4" ∧
      ofCalls forgottenWide = ofCalls refusedWide ∧
        Payload.Coder.utf8 (ofCalls forgottenWide).toText =
          Payload.Coder.utf8 (ofCalls refusedWide).toText := by
  obtain ⟨hfollows, hsame⟩ := ofCalls_follows forgottenWide
  have hget : ∀ owner name,
      (ofCalls forgottenWide).get? owner name = (ofCalls refusedWide).get? owner name :=
    fun _ _ => rfl
  exact ⟨(hfollows.get 2 "best" "rating>=4").1 rfl, hsame refusedWide hget⟩

end SavedSearches

end PictureSearch

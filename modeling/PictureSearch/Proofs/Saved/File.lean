import PictureSearch.Proofs.Json.Reading
import PictureSearch.Proofs.Text.Classes
import PictureSearch.Saved.File

/-!
# Saved searches are read back from their file

The text of any saved searches is read as these searches, whatever characters names and queries
hold, and with owners that have none:

    ofText? s.toText = some s                                                   (ofText?_toText)
-/

namespace PictureSearch.SavedSearches

open Json

/-! ## Lemmas: owners as keys -/

theorem head?_toDigits_ne_zero {n : Nat} (h : 0 < n) : (Nat.toDigits 10 n).head? ≠ some '0' := by
  induction n using Nat.strongRecOn with
  | ind n ih =>
    rw [Nat.toDigits_eq_if (by decide)]
    split
    · simp
      omega
    · have hhead := ih (n / 10) (by omega) (by omega)
      obtain ⟨c, cs, hcs⟩ := List.exists_cons_of_ne_nil (@Nat.toDigits_ne_nil (n / 10) 10)
      rw [hcs] at hhead ⊢
      exact hhead

theorem owner?_toString (owner : UInt64) : owner? (toString owner.toNat) = some owner := by
  have hlist : (toString owner.toNat).toList = Nat.toDigits 10 owner.toNat := Nat.toList_repr
  have hlt : owner.toNat < UInt64.size := owner.toNat_lt
  unfold owner?
  rw [hlist]
  split
  · next c cs hzero =>
    rcases Nat.eq_zero_or_pos owner.toNat with h | h
    · rw [h] at hzero
      cases hzero
    · exact absurd (by rw [hzero]; rfl) (head?_toDigits_ne_zero h)
  · rw [decimal?_toDigits, Option.filter_some, if_pos (decide_eq_true hlt), Option.map_some,
      UInt64.ofNat_toNat]

theorem spelling_of_digits {cs : List Char} (h : ∀ c ∈ cs, c.isDigit = true) : Spelling cs := by
  induction cs with
  | nil => exact .nil
  | cons c cs ih =>
    rw [List.forall_mem_cons] at h
    have hc := Text.isDigit_iff.1 h.1
    refine .char ?_ ?_ (by omega) (ih h.2)
    · rintro rfl
      exact absurd h.1 (by decide)
    · rintro rfl
      exact absurd h.1 (by decide)

theorem spelling_toString (n : Nat) : Spelling (toString n).toList := by
  have hlist : (toString n).toList = Nat.toDigits 10 n := Nat.toList_repr
  rw [hlist]
  exact spelling_of_digits fun _ hc => Nat.isDigit_of_mem_toDigits (by decide) (by decide) hc

/-! ## Lemmas: values -/

theorem mapM_map_of_eq_some {α β : Type} {read : β → Option α} {write : α → β}
    (h : ∀ a, read (write a) = some a) (l : List α) : (l.map write).mapM read = some l := by
  have hpure : read ∘ write = fun a => pure (id a) := funext h
  rw [List.mapM_map, hpure, List.mapM_pure, List.map_id]
  rfl

/-- The searches of one owner, by name. -/
def searchesJson (m : SortedMap String String) : Json :=
  .ofMembers (m.entries.map fun e => (e.1, .ofText e.2))

theorem searches?_searchesJson (m : SortedMap String String) :
    searches? (searchesJson m) = some m := by
  show Option.map _ (List.mapM _ (List.map _ (List.map _ m.entries))) = _
  rw [List.map_map, mapM_map_of_eq_some, Option.map_some, SortedMap.ofList_entries]
  intro e
  show (unescape (escape e.1)).bind _ = _
  rw [unescape_escape, Option.bind_some, text?_ofText]
  rfl

theorem fields?_singleton (name : String) (v : Json) :
    (Json.ofMembers [(name, v)]).fields? [name] = some [(name, v)] := by
  simp [fields?, Json.ofMembers, unescape_escape]

theorem ofJson?_toJson (s : SavedSearches) : ofJson? s.toJson = some s := by
  unfold ofJson? toJson
  rw [fields?_singleton]
  show Option.bind (List.mapM _ (List.map _ s.owners.entries)) _ = _
  rw [mapM_map_of_eq_some]
  · show some (mk (.ofList s.owners.entries)) = some s
    rw [SortedMap.ofList_entries]
  · intro e
    show (owner? (toString e.1.toNat)).bind _ = _
    rw [owner?_toString, Option.bind_some]
    show (searches? (searchesJson e.2)).bind _ = _
    rw [searches?_searchesJson, Option.bind_some]
    rfl

theorem wellSpelled_searchesJson (m : SortedMap String String) : (searchesJson m).WellSpelled := by
  refine .object ?_ ?_
  · simp only [List.forall_mem_map]
    exact fun e _ => spelling_escape e.1
  · simp only [List.forall_mem_map]
    exact fun e _ => .string (spelling_escape e.2)

theorem wellSpelled_toJson (s : SavedSearches) : s.toJson.WellSpelled := by
  refine .object ?_ ?_
  · exact List.forall_mem_singleton.2 (spelling_escape "owners")
  · refine List.forall_mem_singleton.2 (.object ?_ ?_)
    · simp only [List.forall_mem_map]
      exact fun e _ => spelling_toString e.1.toNat
    · simp only [List.forall_mem_map]
      exact fun e _ => wellSpelled_searchesJson e.2

/-! ## Top theorem -/

theorem ofText?_toText (s : SavedSearches) : ofText? s.toText = some s := by
  unfold ofText? toText
  rw [read?_pretty s.wellSpelled_toJson, Option.bind_some, s.ofJson?_toJson]

end PictureSearch.SavedSearches

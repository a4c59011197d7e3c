import PictureSearch.Catalog.Path

/-!
# Lines from a root

A line holds the records from one without parent down to a given one.  Following parent links finds
exactly the line of a record, if it has one and the limit allows for it, and where every parent
ranks below its children every record has a line:

    Line record parent id rs → rs.length ≤ limit →
      climb record parent limit passed id = .rooted (rs ++ passed)              (climb_of_line)
-/

namespace PictureSearch

namespace Ascent

variable {ι ρ : Type} {record : ι → Option ρ} {parent : ρ → Option ι}

/-- The records from one without parent down to the record `id`. -/
inductive Line (record : ι → Option ρ) (parent : ρ → Option ι) : ι → List ρ → Prop
  | root {id : ι} {r : ρ} : record id = some r → parent r = none → Line record parent id [r]
  | child {id above : ι} {r : ρ} {rs : List ρ} :
      record id = some r → parent r = some above → Line record parent above rs →
        Line record parent id (rs ++ [r])

theorem Line.exists_record {id : ι} {rs : List ρ} (h : Line record parent id rs) :
    ∃ r, record id = some r ∧ rs.getLast? = some r := by
  cases h with
  | root hr => exact ⟨_, hr, rfl⟩
  | child hr => exact ⟨_, hr, List.getLast?_concat⟩

/-- Where every record is found again with the same parent, so is its line; a view shows the same
records if it shows no change in any of them. -/
theorem Line.exists_of_kept {ω : Type} {record' : ι → Option ρ} {view : ρ → ω}
    (hkept : ∀ {id : ι} {r : ρ}, record id = some r →
      ∃ r', record' id = some r' ∧ parent r' = parent r ∧ view r' = view r)
    {id : ι} {rs : List ρ} (h : Line record parent id rs) :
    ∃ rs', Line record' parent id rs' ∧ rs'.map view = rs.map view := by
  induction h with
  | root hr hp =>
    obtain ⟨r', hr', hp', hv⟩ := hkept hr
    exact ⟨[r'], .root hr' (hp'.trans hp), by simpa using hv⟩
  | child hr hp _ ih =>
    obtain ⟨r', hr', hp', hv⟩ := hkept hr
    obtain ⟨rs', hline, hvs⟩ := ih
    exact ⟨rs' ++ [r'], .child hr' (hp'.trans hp) hline, by simp [hvs, hv]⟩

theorem climb_of_line {id : ι} {rs : List ρ} (h : Line record parent id rs) {limit : Nat}
    (hl : rs.length ≤ limit) (passed : List ρ) :
    climb record parent limit passed id = .rooted (rs ++ passed) := by
  induction h generalizing limit passed with
  | root hr hp =>
    cases limit with
    | zero => simp at hl
    | succ limit => simp only [climb, hr, hp, List.singleton_append]
  | child hr hp _ ih =>
    rw [List.length_append, List.length_singleton] at hl
    cases limit with
    | zero => omega
    | succ limit =>
      simp only [climb, hr, hp]
      rw [ih (by omega), List.append_assoc, List.singleton_append]

/-- Where parents rank below their children, the rank of a record bounds its line. -/
theorem Line.length_le (rank : ι → Nat)
    (hup : ∀ {id : ι} {r : ρ} {above : ι}, record id = some r → parent r = some above →
      rank above < rank id)
    {id : ι} {rs : List ρ} (h : Line record parent id rs) : rs.length ≤ rank id + 1 := by
  induction h with
  | root => simp
  | child hr hp _ ih =>
    have := hup hr hp
    rw [List.length_append, List.length_singleton]
    omega

/-- Where every parent exists and ranks below its children, every record ends a line. -/
theorem exists_line (rank : ι → Nat)
    (hup : ∀ {id : ι} {r : ρ} {above : ι}, record id = some r → parent r = some above →
      rank above < rank id ∧ ∃ s, record above = some s)
    {id : ι} {r : ρ} (h : record id = some r) : ∃ rs, Line record parent id rs := by
  generalize hn : rank id = n
  induction n using Nat.strongRecOn generalizing id r with
  | ind n ih =>
    cases hp : parent r with
    | none => exact ⟨[r], .root h hp⟩
    | some above =>
      obtain ⟨hlt, s, hs⟩ := hup h hp
      obtain ⟨rs, hline⟩ := ih (rank above) (by omega) hs rfl
      exact ⟨rs ++ [r], .child h hp hline⟩

end Ascent

namespace Catalog

variable (c : Catalog)

/-- The folders from the top down to a folder. -/
def FolderLine : FolderId → List Folder → Prop := Ascent.Line c.folder? (·.parent)

end Catalog

end PictureSearch

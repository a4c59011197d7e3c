import Mathlib.Data.List.Induction
import PictureSearch.Proofs.Catalog.Paths

/-!
# Tags and their paths

In a catalog that was built a path leads to the tag that it is the path of, and to no other: going
down by names, each one among the children of the tag before it, and going up by parents pass the
same tags.

    c.Built → (c.tagAt? path = some id ↔ c.tagPath? id = some path)      (Built.tagAt?_eq_some_iff)
-/

namespace PictureSearch

/-! ## Pieces of paths -/

/-- Joined pieces come apart again where no piece holds a slash. -/
theorem Text.segments_intercalate {names : List String} (hne : names ≠ [])
    (hslash : ∀ name ∈ names, '/' ∉ name.toList) :
    Text.segments ("/".intercalate names) = names := by
  have hsep : "/".toList = ['/'] := rfl
  have hsplit : (['/'].intercalate (names.map String.toList)).splitOn '/' =
      names.map String.toList := by
    refine List.splitOn_intercalate '/' (fun l hl => ?_) (by simpa using hne)
    obtain ⟨name, hm, rfl⟩ := List.mem_map.1 hl
    exact hslash name hm
  rw [segments, String.toList_intercalate, hsep, hsplit, List.map_map]
  simp [Function.comp_def]

namespace Catalog

/-- The names from the root tag down to a tag. -/
def namesDown? (c : Catalog) (id : TagId) : Option (List String) :=
  (c.tagLine id).chain?.map fun tags => tags.map (·.name)

/-- The names down to a place for tags: under a tag, or at the root. -/
def namesAbove? (c : Catalog) : Option TagId → Option (List String)
  | none => some []
  | some parent => c.namesDown? parent

theorem tagPath?_eq_map (c : Catalog) (id : TagId) :
    c.tagPath? id = (c.namesDown? id).map fun names => "/".intercalate names := by
  rw [tagPath?, namesDown?, Option.map_map]
  rfl

/-! ## Lemmas: going down -/

theorem descend?_singleton (c : Catalog) (at? : Option TagId) (name : String) :
    c.descend? at? [name] = c.childTag? at? name := by
  rw [descend?]
  cases c.childTag? at? name <;> rfl

/-- Going down one name further. -/
theorem descend?_concat (c : Catalog) (name : String) {names : List String} (hne : names ≠ [])
    (at? : Option TagId) :
    c.descend? at? (names ++ [name]) =
      (c.descend? at? names).bind fun id => c.childTag? (some id) name := by
  induction names generalizing at? with
  | nil => exact absurd rfl hne
  | cons first rest ih =>
    rw [List.cons_append, descend?, descend?]
    cases c.childTag? at? first with
    | none => rfl
    | some id =>
      cases rest with
      | nil => exact c.descend?_singleton (some id) name
      | cons second rest => exact ih (List.cons_ne_nil _ _) _

namespace Built

variable {c : Catalog} (h : c.Built)

include h

/-- The tag that is found under a parent is the one of that name there. -/
theorem childTag?_eq_some_iff {parent : Option TagId} {name : String} {id : TagId} :
    c.childTag? parent name = some id ↔
      ∃ t, c.tag? id = some t ∧ t.parent = parent ∧ t.name = name := by
  have found {id : TagId} (hf : c.childTag? parent name = some id) :
      ∃ t, c.tag? id = some t ∧ t.parent = parent ∧ t.name = name := by
    have hp := List.find?_some hf
    have hm := List.mem_of_find?_eq_some hf
    rw [tagsNamed, h.links.tags.index, TagIndex.named_ofTags] at hm
    obtain ⟨k, hk, rfl⟩ := List.mem_map.1 hm
    obtain ⟨t, ht, hn⟩ := SortedMap.mem_keysWith_iff.1 hk
    have ht : c.tag? ⟨k⟩ = some t := ht
    simp only [ht, Option.any_some, beq_iff_eq] at hp
    exact ⟨t, ht, hp, by simpa using hn⟩
  constructor
  · exact found
  · rintro ⟨t, ht, hp, hn⟩
    cases hc : c.childTag? parent name with
    | none => exact absurd hp ((childTag?_eq_none_iff h.links.tags.index).1 hc ht hn)
    | some other =>
      obtain ⟨s, hs, hsp, hsn⟩ := found hc
      have hk := h.links.tags.names.apart hs ht (hsp.trans hp.symm) (hsn.trans hn.symm)
      rw [tagIndex_injective hk]

/-! ## Lemmas: names from the root -/

theorem exists_tag?_of_tagPath? {id : TagId} {path : String} (hp : c.tagPath? id = some path) :
    ∃ t, c.tag? id = some t := by
  rw [← Option.isSome_iff_exists, ← h.isSome_tagPath?, hp]
  rfl

theorem exists_tag?_of_namesDown? {id : TagId} {names : List String}
    (hn : c.namesDown? id = some names) : ∃ t, c.tag? id = some t := by
  have hp : c.tagPath? id = some ("/".intercalate names) := by
    rw [c.tagPath?_eq_map, hn]
    rfl
  exact h.exists_tag?_of_tagPath? hp

theorem namesDown?_eq_some_iff {id : TagId} {names : List String} :
    c.namesDown? id = some names ↔ ∃ ts, c.TagLine id ts ∧ ts.map (·.name) = names := by
  constructor
  · intro hn
    obtain ⟨t, ht⟩ := h.exists_tag?_of_namesDown? hn
    obtain ⟨ts, hline⟩ := h.exists_tagLine ht
    rw [namesDown?, h.tagLine_eq hline] at hn
    exact ⟨ts, hline, Option.some.inj hn⟩
  · rintro ⟨ts, hline, rfl⟩
    rw [namesDown?, h.tagLine_eq hline]
    rfl

/-- The names on a line are pieces of a path: there are some, and none holds a slash. -/
theorem pieces_of_namesDown? {id : TagId} {names : List String}
    (hn : c.namesDown? id = some names) : names ≠ [] ∧ ∀ name ∈ names, '/' ∉ name.toList := by
  obtain ⟨ts, hline, rfl⟩ := h.namesDown?_eq_some_iff.1 hn
  clear hn
  induction hline with
  | root ht => simpa using (h.links.tags.names.usable ht).2
  | child ht _ _ ih =>
    rw [List.map_append, List.map_singleton]
    refine ⟨by simp, List.forall_mem_append.2 ⟨ih.2, ?_⟩⟩
    simpa using (h.links.tags.names.usable ht).2

/-- Names lead to the tag whose names they are. -/
theorem descend?_eq_some_iff {names : List String} (hne : names ≠ []) {id : TagId} :
    c.descend? none names = some id ↔ c.namesDown? id = some names := by
  rw [h.namesDown?_eq_some_iff]
  constructor
  · intro hd
    induction names using List.reverseRecOn generalizing id with
    | nil => exact absurd rfl hne
    | append_singleton names name ih =>
      by_cases hnames : names = []
      · subst hnames
        rw [List.nil_append, descend?_singleton] at hd
        obtain ⟨t, ht, hp, rfl⟩ := h.childTag?_eq_some_iff.1 hd
        exact ⟨[t], .root ht hp, rfl⟩
      · rw [c.descend?_concat name hnames, Option.bind_eq_some_iff] at hd
        obtain ⟨above, habove, hd⟩ := hd
        obtain ⟨t, ht, hp, rfl⟩ := h.childTag?_eq_some_iff.1 hd
        obtain ⟨ts, hline, rfl⟩ := ih hnames habove
        exact ⟨ts ++ [t], .child ht hp hline, List.map_append⟩
  · rintro ⟨ts, hline, rfl⟩
    induction hline with
    | @root id t ht hp =>
      rw [List.map_singleton, descend?_singleton]
      exact h.childTag?_eq_some_iff.2 ⟨t, ht, hp, rfl⟩
    | @child id above t ts ht hp hline ih =>
      have hts : ts.map (·.name) ≠ [] :=
        (h.pieces_of_namesDown? (h.namesDown?_eq_some_iff.2 ⟨ts, hline, rfl⟩)).1
      rw [List.map_append, List.map_singleton, c.descend?_concat _ hts, ih hts]
      exact h.childTag?_eq_some_iff.2 ⟨t, ht, hp, rfl⟩

/-- Whether a name is taken at a place is seen from the names down to it. -/
theorem childTag?_eq_descend? {parent : Option TagId} {above : List String}
    (ha : c.namesAbove? parent = some above) (name : String) :
    c.childTag? parent name = c.descend? none (above ++ [name]) := by
  cases parent with
  | none =>
    cases ha
    exact (c.descend?_singleton none name).symm
  | some p =>
    have hne := (h.pieces_of_namesDown? ha).1
    rw [c.descend?_concat name hne, (h.descend?_eq_some_iff hne).2 ha]
    rfl

/-! ## Top theorem -/

/-- A path leads to the tag whose path it is. -/
theorem tagAt?_eq_some_iff {path : String} {id : TagId} :
    c.tagAt? path = some id ↔ c.tagPath? id = some path := by
  rw [tagAt?, h.descend?_eq_some_iff (Text.segments_ne_nil path), c.tagPath?_eq_map,
    Option.map_eq_some_iff]
  constructor
  · intro hn
    exact ⟨_, hn, Text.intercalate_segments path⟩
  · rintro ⟨names, hn, rfl⟩
    obtain ⟨hne, hslash⟩ := h.pieces_of_namesDown? hn
    rw [Text.segments_intercalate hne hslash, hn]

end Built

end Catalog

end PictureSearch

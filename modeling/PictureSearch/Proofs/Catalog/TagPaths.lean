import PictureSearch.Proofs.Catalog.Resolving

/-!
# Tag paths tell tags apart

In a catalog that was built the tags and the texts that lead to a tag belong together one to one:
each tag has a path that leads back to it, what leads to a tag is its path, and so no two tags share
one (`tagPath?_tagAt?_inverse`).  A text with a gap, where a piece between two slashes would be
empty, leads nowhere:

    "" ∈ Text.segments path ↔ Text.Gapped path.toList                 (Text.mem_segments_iff_gapped)
-/

namespace PictureSearch

/-! ## Gaps in texts -/

namespace Text

/-- Somewhere a piece between the slashes is empty. -/
inductive Gapped : List Char → Prop
  | empty : Gapped []
  | leading (rest : List Char) : Gapped ('/' :: rest)
  | trailing (front : List Char) : Gapped (front ++ ['/'])
  | doubled (front rest : List Char) : Gapped (front ++ '/' :: '/' :: rest)

/-- Pieces joined in two parts, with one more separator between the parts. -/
theorem intercalate_append {α : Type} (sep : List α) {front rest : List (List α)}
    (hfront : front ≠ []) (hrest : rest ≠ []) :
    sep.intercalate (front ++ rest) = sep.intercalate front ++ sep ++ sep.intercalate rest := by
  induction front with
  | nil => exact absurd rfl hfront
  | cons first more ih =>
    rw [List.cons_append]
    by_cases hmore : more = []
    · subst hmore
      rw [List.nil_append, List.intercalate_cons_of_ne_nil hrest, List.intercalate_singleton]
    · rw [List.intercalate_cons_of_ne_nil (List.append_ne_nil_of_left_ne_nil hmore rest),
        List.intercalate_cons_of_ne_nil hmore, ih hmore]
      simp only [List.append_assoc]

/-- An empty piece has a slash, or an end of the text, on either side. -/
theorem gapped_intercalate (before after : List (List Char)) :
    Gapped (['/'].intercalate (before ++ [] :: after)) := by
  have hback : ∀ piece more, ['/'].intercalate ([] :: piece :: more) =
      '/' :: ['/'].intercalate (piece :: more) := fun piece more =>
    List.intercalate_cons_of_ne_nil (List.cons_ne_nil piece more)
  by_cases hbefore : before = []
  · subst hbefore
    rw [List.nil_append]
    cases after with
    | nil => exact .empty
    | cons piece more =>
      rw [hback]
      exact .leading _
  · rw [intercalate_append ['/'] hbefore (List.cons_ne_nil [] after)]
    cases after with
    | nil =>
      rw [List.intercalate_singleton, List.append_nil]
      exact .trailing _
    | cons piece more =>
      rw [hback, List.append_assoc]
      exact .doubled _ _

theorem Gapped.nil_mem_splitOn {cs : List Char} (h : Gapped cs) : [] ∈ cs.splitOn '/' := by
  have hleading (rest : List Char) : [] ∈ ('/' :: rest).splitOn '/' := by
    rw [List.splitOn_cons_eq_if_modifyHead, if_pos (beq_self_eq_true '/')]
    exact List.mem_cons_self
  cases h with
  | empty => exact List.mem_cons_self
  | leading rest => exact hleading rest
  | trailing front =>
    rw [List.splitOn_append_cons_self]
    exact List.mem_append_right _ List.mem_cons_self
  | doubled front rest =>
    rw [List.splitOn_append_cons_self]
    exact List.mem_append_right _ (hleading rest)

theorem mem_segments_iff_gapped {path : String} :
    "" ∈ segments path ↔ Gapped path.toList := by
  have hpieces : "" ∈ segments path ↔ [] ∈ path.toList.splitOn '/' :=
    List.mem_map_of_injective (f := String.ofList) fun _ _ => String.ofList_inj.1
  rw [hpieces]
  constructor
  · intro hnil
    obtain ⟨before, after, hsplit⟩ := List.append_of_mem hnil
    have hjoin : ['/'].intercalate (path.toList.splitOn '/') = path.toList :=
      List.intercalate_splitOn '/'
    rw [← hjoin, hsplit]
    exact gapped_intercalate before after
  · exact Gapped.nil_mem_splitOn

end Text

namespace Catalog

variable {c : Catalog}

/-! ## Lemmas: names along a path -/

/-- The pieces of a path are the names of tags. -/
theorem Built.ne_empty_of_namesDown? (h : c.Built) {id : TagId} {names : List String}
    (hn : c.namesDown? id = some names) : "" ∉ names := by
  obtain ⟨ts, hline, rfl⟩ := h.namesDown?_eq_some_iff.1 hn
  clear hn
  induction hline with
  | root ht => simpa using (h.links.tags.names.usable ht).1.symm
  | child ht _ _ ih =>
    rw [List.map_append, List.map_singleton, List.mem_append, List.mem_singleton, not_or]
    exact ⟨ih, (h.links.tags.names.usable ht).1.symm⟩

theorem Built.tagAt?_of_gapped (h : c.Built) {path : String} (hgap : Text.Gapped path.toList) :
    c.tagAt? path = none := by
  cases hat : c.tagAt? path with
  | none => rfl
  | some id =>
    have hn : c.namesDown? id = some (Text.segments path) :=
      (h.descend?_eq_some_iff (Text.segments_ne_nil path)).1 hat
    exact absurd (Text.mem_segments_iff_gapped.2 hgap) (h.ne_empty_of_namesDown? hn)

/-- Every tag has a path, and the path leads back. -/
theorem Built.exists_tagPath? (h : c.Built) {id : TagId} {t : Tag} (ht : c.tag? id = some t) :
    ∃ path, c.tagPath? id = some path ∧ c.tagAt? path = some id := by
  have hsome : (c.tagPath? id).isSome := by
    rw [h.isSome_tagPath?, ht]
    rfl
  obtain ⟨path, hpath⟩ := Option.isSome_iff_exists.1 hsome
  exact ⟨path, hpath, h.tagAt?_eq_some_iff.2 hpath⟩

/-! ## Top theorem -/

/-- **Tags and their paths, one to one.**  A tag's path leads to it, what leads to a tag is its
path, different tags have different paths, and a text with an empty piece is no path. -/
theorem tagPath?_tagAt?_inverse (h : c.Built) :
    (∀ id t, c.tag? id = some t →
      ∃ path, c.tagPath? id = some path ∧ c.tagAt? path = some id) ∧
    (∀ path id, c.tagAt? path = some id →
      (∃ t, c.tag? id = some t) ∧ c.tagPath? id = some path) ∧
    (∀ id other path, c.tagPath? id = some path → c.tagPath? other = some path → id = other) ∧
    ∀ path, Text.Gapped path.toList → c.tagAt? path = none := by
  refine ⟨fun id t => h.exists_tagPath?, fun path id hat => ?_, fun id other path hid hother => ?_,
    fun path => h.tagAt?_of_gapped⟩
  · have hpath := h.tagAt?_eq_some_iff.1 hat
    exact ⟨h.exists_tag?_of_tagPath? hpath, hpath⟩
  · rw [← h.tagAt?_eq_some_iff] at hid hother
    exact Option.some.inj (hid.symm.trans hother)

/-- Tags of one name at the root, below another tag and below one another. -/
def repeatedNames : Catalog := build
  [.tag "Foo" none, .tag "Bar" none, .tag "Foo" (some ⟨1⟩), .tag "Foo" (some ⟨2⟩),
   .tag "Foo" (some ⟨2⟩)]

theorem tagPath?_tagAt?_inverse_repeatedNames :
    (∃ path, repeatedNames.tagPath? ⟨3⟩ = some path ∧ repeatedNames.tagAt? path = some ⟨3⟩) ∧
      repeatedNames.tagPath? ⟨3⟩ = some "Bar/Foo/Foo" ∧
      repeatedNames.tagAt? "Bar//Foo" = none := by
  have hbuilt : repeatedNames.Built := built_build _
  obtain ⟨hback, hforth, _, hgap⟩ := tagPath?_tagAt?_inverse hbuilt
  have hlead : repeatedNames.tagAt? "Bar/Foo/Foo" = some ⟨3⟩ := by decide +kernel
  exact ⟨hback ⟨3⟩ ⟨"Foo", some ⟨2⟩, []⟩ (by decide +kernel), (hforth _ _ hlead).2,
    hgap "Bar//Foo" (.doubled "Bar".toList "Foo".toList)⟩

end Catalog

end PictureSearch

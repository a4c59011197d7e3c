import PictureSearch.Proofs.Catalog.Resolving
import PictureSearch.Proofs.Snapshot.Contents
import PictureSearch.Proofs.Snapshot.Traversal

/-!
# Loading tags

Tags are added below a place whose names are free.  This goes well just where the names in their
trees are usable and siblings have different ones, and then the catalog has the lines of their
trees besides those that it had:

    (∃ d, addTagTrees parent c ts = .ok d) ↔
      ProperAll ts ∧ ∀ t ∈ ts, some (above ++ [t.name]) ∉ c.tagLines
                                                                 (Built.exists_addTagTrees_iff)

    addTagTrees parent c ts = .ok d → c.TagsAdded (linesAll above ts) d      (Built.addTagTrees_ok)
-/

namespace PictureSearch

open Snapshot.Tag (linesAll ProperAll)

/-! ## Lines of trees -/

namespace Snapshot.Tag

theorem mem_linesAll_iff {above line : List String} {ts : List Tag} :
    line ∈ linesAll above ts ↔ ∃ t ∈ ts, line ∈ t.lines above := by
  induction ts with
  | nil => simp [linesAll]
  | cons t rest ih => simp [linesAll, ih]

mutual

/-- All lines of a tree go through its root. -/
theorem prefix_of_mem_lines {above line : List String} {t : Tag} (h : line ∈ t.lines above) :
    above ++ [t.name] <+: line := by
  match t with
  | .mk name children =>
    rw [lines, List.mem_cons] at h
    rcases h with rfl | h
    · exact List.prefix_rfl
    · obtain ⟨child, _, hc⟩ := prefix_of_mem_linesAll h
      exact (List.prefix_append _ _).trans hc

theorem prefix_of_mem_linesAll {above line : List String} {ts : List Tag}
    (h : line ∈ linesAll above ts) : ∃ t ∈ ts, above ++ [t.name] <+: line := by
  match ts with
  | [] => cases h
  | t :: rest =>
    rw [linesAll, List.mem_append] at h
    rcases h with h | h
    · exact ⟨t, List.mem_cons_self, prefix_of_mem_lines h⟩
    · obtain ⟨u, hu, hp⟩ := prefix_of_mem_linesAll h
      exact ⟨u, List.mem_cons_of_mem _ hu, hp⟩

end

theorem concat_name_mem_lines (above : List String) (t : Tag) :
    above ++ [t.name] ∈ t.lines above := by
  cases t
  exact List.mem_cons_self

/-- The short lines of trees are those of their roots. -/
theorem concat_mem_linesAll_iff {above : List String} {name : String} {ts : List Tag} :
    above ++ [name] ∈ linesAll above ts ↔ name ∈ ts.map (·.name) := by
  constructor
  · intro h
    obtain ⟨t, ht, hp⟩ := prefix_of_mem_linesAll h
    have heq := hp.eq_of_length (by simp)
    rw [List.append_cancel_left_eq, List.singleton_inj] at heq
    exact heq ▸ List.mem_map_of_mem ht
  · intro h
    obtain ⟨t, ht, rfl⟩ := List.mem_map.1 h
    exact mem_linesAll_iff.2 ⟨t, ht, concat_name_mem_lines above t⟩

end Snapshot.Tag

namespace Catalog

/-- The names down to each tag, in the order of their numbers. -/
def tagLines (c : Catalog) : List (Option (List String)) :=
  c.tags.keys.map fun k => c.namesDown? ⟨k⟩

/-- The catalog `d` has the tags with the given lines besides those of `c`. -/
structure TagsAdded (c : Catalog) (lines : List (List String)) (d : Catalog) : Prop where
  built : d.Built
  kept : ∀ {id : TagId} {names : List String},
    c.namesDown? id = some names → d.namesDown? id = some names
  lines : d.tagLines.Perm (c.tagLines ++ lines.map some)
  libraries : d.libraries = c.libraries
  folders : d.folders = c.folders
  items : d.items = c.items

theorem TagsAdded.refl {c : Catalog} (h : c.Built) : c.TagsAdded [] c :=
  ⟨h, id, by simp, rfl, rfl, rfl⟩

theorem TagsAdded.trans {c d e : Catalog} {lines lines' : List (List String)}
    (h : c.TagsAdded lines d) (h' : d.TagsAdded lines' e) : c.TagsAdded (lines ++ lines') e where
  built := h'.built
  kept := fun hn => h'.kept (h.kept hn)
  lines := by
    rw [List.map_append, ← List.append_assoc]
    exact h'.lines.trans (h.lines.append_right _)
  libraries := h'.libraries.trans h.libraries
  folders := h'.folders.trans h.folders
  items := h'.items.trans h.items

theorem TagsAdded.of_perm {c d : Catalog} {lines lines' : List (List String)}
    (h : c.TagsAdded lines d) (hp : lines.Perm lines') : c.TagsAdded lines' d :=
  { h with lines := h.lines.trans ((hp.map some).append_left _) }

theorem TagsAdded.namesAbove? {c d : Catalog} {lines : List (List String)}
    (h : c.TagsAdded lines d) {parent : Option TagId} {above : List String}
    (ha : c.namesAbove? parent = some above) : d.namesAbove? parent = some above := by
  cases parent with
  | none => exact ha
  | some p => exact h.kept ha

/-! ## One tag -/

theorem exists_addTag_iff {c : Catalog} {name : String} {parent : Option TagId} :
    (∃ d id, c.addTag name parent = .ok (d, id)) ↔ c.checkTag name parent = .ok () := by
  unfold addTag
  constructor
  · rintro ⟨d, id, h⟩
    obtain ⟨⟨⟩, hcheck, _⟩ := bind_eq_ok_iff.1 h
    exact hcheck
  · intro hcheck
    rw [hcheck]
    exact ⟨_, _, rfl⟩

namespace Built

variable {c : Catalog} (h : c.Built)

include h

theorem mem_tagLines_iff {names : List String} :
    some names ∈ c.tagLines ↔ ∃ id, c.namesDown? id = some names := by
  rw [tagLines, List.mem_map]
  constructor
  · rintro ⟨k, _, hn⟩
    exact ⟨⟨k⟩, hn⟩
  · rintro ⟨id, hn⟩
    obtain ⟨t, ht⟩ := h.exists_tag?_of_namesDown? hn
    exact ⟨id.index, SortedMap.mem_keys_iff.2 ⟨t, ht⟩, hn⟩

/-- With a line there are those that it prolongs. -/
theorem mem_tagLines_of_concat {names : List String} {name : String} (hne : names ≠ [])
    (hm : some (names ++ [name]) ∈ c.tagLines) : some names ∈ c.tagLines := by
  obtain ⟨id, hn⟩ := h.mem_tagLines_iff.1 hm
  rw [← h.descend?_eq_some_iff (by simp), c.descend?_concat name hne,
    Option.bind_eq_some_iff] at hn
  obtain ⟨parent, hp, _⟩ := hn
  exact h.mem_tagLines_iff.2 ⟨parent, (h.descend?_eq_some_iff hne).1 hp⟩

/-- A tag can be added where its name is usable and the line is new. -/
theorem exists_addTag_iff_not_mem {parent : Option TagId} {above : List String}
    (ha : c.namesAbove? parent = some above) (name : String) :
    (∃ d id, c.addTag name parent = .ok (d, id)) ↔
      (name ≠ "" ∧ '/' ∉ name.toList) ∧ some (above ++ [name]) ∉ c.tagLines := by
  have hparent : ∀ p ∈ parent, ∃ t, c.tag? p = some t := by
    rintro p rfl
    exact h.exists_tag?_of_namesDown? ha
  have hfree : c.childTag? parent name = none ↔ some (above ++ [name]) ∉ c.tagLines := by
    rw [h.childTag?_eq_descend? ha, Option.eq_none_iff_forall_ne_some, h.mem_tagLines_iff,
      not_exists]
    exact forall_congr' fun id => not_congr (h.descend?_eq_some_iff (by simp))
  rw [exists_addTag_iff, checkTag_eq_ok_iff, hfree]
  exact and_congr_right fun _ => and_iff_right hparent

/-- A tag that is added gets the next number; the other tags keep their names and parents. -/
theorem tags_of_adds {d : Catalog} {name : String} {parent : Option TagId}
    (ha : c.Adds (.tag name parent) d) :
    (∀ {id t}, c.tag? id = some t →
      ∃ t', d.tag? id = some t' ∧ t'.parent = t.parent ∧ t'.name = t.name) ∧
    (∃ t, d.tag? ⟨c.tags.freshKey⟩ = some t ∧ t.parent = parent ∧ t.name = name) ∧
    d.tags.keys = c.tags.keys ++ [c.tags.freshKey] := by
  have hg := h.links.tags.ranked.gapless
  cases ha with
  | rootTag =>
    refine ⟨fun ht => ?_, ⟨_, SortedMap.find?_insert_self .., rfl, rfl⟩, hg.keys_insert_freshKey _⟩
    exact ⟨_, hg.find?_insert_of_find? ht _, rfl, rfl⟩
  | @childTag name parent =>
    have again {tags : SortedMap Nat Tag} {fill : Tag → Tag}
        (hfill : ∀ t, ((fill t).parent, (fill t).name) = (t.parent, t.name)) {k : Nat} {t : Tag}
        (ht : tags.find? k = some t) :
        ∃ t', (tags.update parent.index fill).find? k = some t' ∧
          t'.parent = t.parent ∧ t'.name = t.name := by
      obtain ⟨t', ht', hv⟩ := SortedMap.exists_find?_update_of_view
        (fun t => (t.parent, t.name)) parent.index hfill ht
      exact ⟨t', ht', Prod.mk.inj hv⟩
    refine ⟨fun ht => again ?_ (hg.find?_insert_of_find? ht _),
      again ?_ (SortedMap.find?_insert_self ..), ?_⟩
    · exact fun _ => rfl
    · exact fun _ => rfl
    · rw [SortedMap.keys_update, hg.keys_insert_freshKey]

theorem tagsAdded_of_addTag {d : Catalog} {name : String} {parent : Option TagId} {id : TagId}
    {above : List String} (ha : c.namesAbove? parent = some above)
    (hadd : c.addTag name parent = .ok (d, id)) :
    c.TagsAdded [above ++ [name]] d ∧ d.namesDown? id = some (above ++ [name]) := by
  obtain ⟨hadds, rfl⟩ := addTag_eq_ok_iff.1 hadd
  have hd := h.of_adds hadds
  obtain ⟨hold, ⟨t, ht, hp, hn⟩, hkeys⟩ := h.tags_of_adds hadds
  have kept {id : TagId} {names : List String} (hnames : c.namesDown? id = some names) :
      d.namesDown? id = some names := by
    obtain ⟨ts, hline, rfl⟩ := h.namesDown?_eq_some_iff.1 hnames
    exact hd.namesDown?_eq_some_iff.2 (hline.exists_of_kept hold)
  have hnew : d.namesDown? ⟨c.tags.freshKey⟩ = some (above ++ [name]) := by
    rw [hd.namesDown?_eq_some_iff]
    cases hparent : parent with
    | none =>
      rw [hparent] at ha hp
      cases ha
      exact ⟨[t], .root ht hp, by simp [hn]⟩
    | some p =>
      rw [hparent] at ha hp
      obtain ⟨ts, hline, rfl⟩ := hd.namesDown?_eq_some_iff.1 (kept ha)
      exact ⟨ts ++ [t], .child ht hp hline, by simp [hn]⟩
  have hlines : d.tagLines = c.tagLines ++ [some (above ++ [name])] := by
    rw [tagLines, hkeys, List.map_append, List.map_singleton, hnew]
    congr 1
    refine List.map_congr_left fun k hk => ?_
    obtain ⟨t, ht⟩ := SortedMap.mem_keys_iff.1 hk
    have ht : c.tag? ⟨k⟩ = some t := ht
    obtain ⟨ts, hline⟩ := h.exists_tagLine ht
    have hnames := h.namesDown?_eq_some_iff.2 ⟨ts, hline, rfl⟩
    rw [hnames, kept hnames]
  refine ⟨⟨hd, kept, List.Perm.of_eq hlines, ?_, ?_, ?_⟩, hnew⟩
  all_goals cases hadds <;> rfl

end Built

/-! ## Trees of tags -/

mutual

theorem Built.addTagTree_ok {c d : Catalog} (h : c.Built) {parent : Option TagId}
    {above : List String} (ha : c.namesAbove? parent = some above) {t : Snapshot.Tag}
    (hd : addTagTree parent c t = .ok d) : c.TagsAdded (t.lines above) d := by
  match t with
  | .mk name children =>
    rw [addTagTree] at hd
    split at hd
    · cases hd
    · next e id hadd =>
      obtain ⟨hadded, hid⟩ := h.tagsAdded_of_addTag ha hadd
      have hid : e.namesAbove? (some id) = some (above ++ [name]) := hid
      exact hadded.trans (hadded.built.addTagTrees_ok hid hd)

theorem Built.addTagTrees_ok {c d : Catalog} (h : c.Built) {parent : Option TagId}
    {above : List String} (ha : c.namesAbove? parent = some above) {ts : List Snapshot.Tag}
    (hd : addTagTrees parent c ts = .ok d) : c.TagsAdded (linesAll above ts) d := by
  match ts with
  | [] =>
    cases hd
    exact .refl h
  | t :: rest =>
    rw [addTagTrees] at hd
    obtain ⟨e, he, hd⟩ := bind_eq_ok_iff.1 hd
    have hrest := h.addTagTrees_ok ha he
    have ht := hrest.built.addTagTree_ok (hrest.namesAbove? ha) hd
    exact (hrest.trans ht).of_perm List.perm_append_comm

end

mutual

theorem Built.exists_addTagTree_iff {c : Catalog} (h : c.Built) {parent : Option TagId}
    {above : List String} (ha : c.namesAbove? parent = some above) (t : Snapshot.Tag) :
    (∃ d, addTagTree parent c t = .ok d) ↔
      t.Proper ∧ some (above ++ [t.name]) ∉ c.tagLines := by
  match t with
  | .mk name children =>
    have hone := h.exists_addTag_iff_not_mem ha name
    rw [addTagTree, Snapshot.Tag.Proper, and_right_comm, Snapshot.Tag.name, ← hone]
    cases hadd : c.addTag name parent with
    | error e => simp
    | ok added =>
      obtain ⟨e, id⟩ := added
      obtain ⟨hadded, hid⟩ := h.tagsAdded_of_addTag ha hadd
      have hnew := (hone.1 ⟨e, id, hadd⟩).2
      -- the tag that was just added has no tags below it
      have hfree : ∀ child ∈ children, some (above ++ [name] ++ [child.name]) ∉ e.tagLines := by
        intro child _ hm
        rw [hadded.lines.mem_iff, List.mem_append] at hm
        rcases hm with hm | hm
        · exact hnew (h.mem_tagLines_of_concat (by simp) hm)
        · simp at hm
      have hid : e.namesAbove? (some id) = some (above ++ [name]) := hid
      have hchildren := hadded.built.exists_addTagTrees_iff hid children
      simp only [hchildren, and_iff_left hfree]
      simp

theorem Built.exists_addTagTrees_iff {c : Catalog} (h : c.Built) {parent : Option TagId}
    {above : List String} (ha : c.namesAbove? parent = some above) (ts : List Snapshot.Tag) :
    (∃ d, addTagTrees parent c ts = .ok d) ↔
      ProperAll ts ∧ ∀ t ∈ ts, some (above ++ [t.name]) ∉ c.tagLines := by
  match ts with
  | [] => simp [addTagTrees, ProperAll]
  | t :: rest =>
    -- the later siblings are added first, so the name must be free beside theirs
    have hlast {e : Catalog} (he : addTagTrees parent c rest = .ok e) :
        (∃ d, addTagTree parent e t = .ok d) ↔
          t.Proper ∧ t.name ∉ rest.map (·.name) ∧ some (above ++ [t.name]) ∉ c.tagLines := by
      have hadded := h.addTagTrees_ok ha he
      rw [hadded.built.exists_addTagTree_iff (hadded.namesAbove? ha) t, hadded.lines.mem_iff,
        List.mem_append, not_or, List.mem_map_of_injective (Option.some_injective _),
        Snapshot.Tag.concat_mem_linesAll_iff]
      exact and_congr_right fun _ => and_comm
    rw [addTagTrees, ProperAll, List.forall_mem_cons,
      exists_bind_eq_ok_iff (h.exists_addTagTrees_iff ha rest) fun e he => hlast he]
    simp only [and_assoc, and_comm, and_left_comm]

end

end Catalog

end PictureSearch

import PictureSearch.Proofs.Catalog.Extension
import PictureSearch.Proofs.Search.Order

/-!
# Growing leaves results as they were

After further calls, whether they succeed or fail, every query runs or fails as before.  What it
tells of the pictures that were there is what it told before: the new pictures taken out, the
result is the same in the same order, and so are the rows:

    c.Built → ((more.foldl after c).answer exposed root viewer key direction 0 none).map
        (·.without (c.newItems more)) =
      c.answer exposed root viewer key direction 0 none                         (answer_foldl_after)
-/

namespace PictureSearch

namespace Catalog

/-- An answer without what it tells of some pictures. -/
def Answer.without (a : Answer) (gone : List ItemId) : Answer where
  count := a.count - a.ids.countP fun id => decide (id ∈ gone)
  ids := a.ids.filter fun id => decide (id ∉ gone)
  views := a.views.filter fun v => decide (v.id ∉ gone)

/-! ## Lemmas -/

theorem id_of_view? {c : Catalog} {id : ItemId} {v : ItemView} (hv : c.view? id = some v) :
    v.id = id := by
  simp only [view?, Option.bind_eq_bind, Option.bind_eq_some_iff] at hv
  obtain ⟨_, _, _, _, hv⟩ := hv
  cases hv
  rfl

/-- Rows of new pictures are taken out where the pictures are. -/
theorem filter_filterMap_view? (d : Catalog) (new ids : List ItemId) :
    (ids.filterMap d.view?).filter (fun v => decide (v.id ∉ new)) =
      (ids.filter fun id => decide (id ∉ new)).filterMap d.view? := by
  rw [List.filter_filterMap, List.filterMap_filter]
  refine List.filterMap_congr fun id _ => ?_
  cases hv : d.view? id with
  | none => simp
  | some v => rw [Option.filter_some, id_of_view? hv]

section Extension

variable {c d : Catalog} {new : List ItemId} (hc : c.Built) (h : c.Extends new d)

include hc h

theorem samePicture_of_extends {id : ItemId} {item : Item} (hi : c.item? id = some item) :
    SamePicture c d id item where
  here := hi
  there := h.item hi
  folders := h.folderLine
  library := by
    obtain ⟨f, hf⟩ := hc.exists_folder hi
    obtain ⟨l, hl⟩ := hc.exists_library hf
    obtain ⟨g, hg, hgf⟩ := h.folder hf
    obtain ⟨m, hm, hml⟩ := h.library hl
    rw [← (Folder.outline_eq_iff.1 hgf).2.1] at hm
    exact ⟨l, m, ⟨f, hf, hl⟩, ⟨g, hg, hm⟩, hml⟩
  tagNames := (h.tagNames_eq hc hi).symm

omit hc in
/-- A picture that was there is not new. -/
theorem not_mem_new_of_item? {id : ItemId} {item : Item} (hi : c.item? id = some item) :
    id ∉ new := by
  intro hnew
  have hpairwise := d.itemIds_pairwise
  rw [h.itemIds, List.pairwise_append] at hpairwise
  have hold : id ∈ c.itemIds := (c.mem_itemIds_iff id).2 ⟨item, hi⟩
  exact Nat.lt_irrefl _ (hpairwise.2.2 id hold id hnew)

/-- The pictures found that were there are those that were found. -/
theorem matching_of_extends (p : Predicate) :
    (d.matching p).filter (fun id => decide (id ∉ new)) = c.matching p := by
  rw [matching_eq_filter, matching_eq_filter, h.itemIds, List.filter_append, List.filter_append]
  have hnew : (new.filter (d.admits p)).filter (fun id => decide (id ∉ new)) = [] := by
    rw [List.filter_eq_nil_iff]
    intro id hid
    simpa using (List.mem_filter.1 hid).1
  rw [hnew, List.append_nil, List.filter_filter]
  apply List.filter_congr
  intro id hid
  obtain ⟨item, hi⟩ := (c.mem_itemIds_iff id).1 hid
  rw [(samePicture_of_extends hc h hi).admits_eq p, decide_eq_true (not_mem_new_of_item? h hi),
    Bool.true_and]

omit hc in
/-- Two pictures that were there stand in the order in which they stood. -/
theorem goes_of_extends {key : OrderKey} {direction : Direction} {a b : ItemId} {x y : Item}
    (ha : c.item? a = some x) (hb : c.item? b = some y) (hd : d.Goes key direction a b) :
    c.Goes key direction a b := by
  have hprecedes {a b : ItemId} {x y : Item} (ha : c.item? a = some x) (hb : c.item? b = some y)
      (hd : d.Precedes key a b) : c.Precedes key a b := by
    obtain ⟨x', y', hx, hy, hxy⟩ := hd
    rw [h.item ha] at hx
    rw [h.item hb] at hy
    cases hx
    cases hy
    exact ⟨x, y, ha, hb, hxy⟩
  cases direction with
  | ascending => exact hprecedes ha hb hd
  | descending => exact hprecedes hb ha hd

theorem ids_of_extends (p : Predicate) (key : OrderKey) (direction : Direction) :
    (d.ids ⟨p, key, direction, 0, none⟩).filter (fun id => decide (id ∉ new)) =
      c.ids ⟨p, key, direction, 0, none⟩ := by
  have hperm : ((d.ids ⟨p, key, direction, 0, none⟩).filter fun id => decide (id ∉ new)).Perm
      (c.matching p) := by
    rw [← matching_of_extends hc h]
    exact (d.ids_perm_matching p key direction).filter _
  refine (c.strictTotalOn_goes p key direction).eq_of_perm hperm (c.ids_perm_matching p key _) ?_
    (c.ids_pairwise_goes p key direction)
  refine ((d.ids_pairwise_goes p key direction).filter _).imp_of_mem fun {a b} ha hb hab => ?_
  obtain ⟨⟨x, hx⟩, _⟩ := (c.mem_matching_iff p a).1 (hperm.mem_iff.1 ha)
  obtain ⟨⟨y, hy⟩, _⟩ := (c.mem_matching_iff p b).1 (hperm.mem_iff.1 hb)
  exact goes_of_extends h hx hy hab

theorem view?_of_extends {id : ItemId} (hid : id ∈ c.itemIds) : d.view? id = c.view? id := by
  obtain ⟨item, hi⟩ := (c.mem_itemIds_iff id).1 hid
  exact ((samePicture_of_extends hc h hi).view?_eq hc h.built).symm

theorem views_of_extends (p : Predicate) (key : OrderKey) (direction : Direction) :
    (d.views ⟨p, key, direction, 0, none⟩).filter (fun v => decide (v.id ∉ new)) =
      c.views ⟨p, key, direction, 0, none⟩ := by
  unfold views
  rw [filter_filterMap_view?, ids_of_extends hc h p key direction]
  refine List.filterMap_congr fun id hid => view?_of_extends hc h ?_
  rw [mem_itemIds_iff]
  exact ((c.mem_matching_iff p id).1 (mem_matching_of_mem_ids hid)).1

theorem tell_of_extends (p : Predicate) (key : OrderKey) (direction : Direction) :
    (d.tell ⟨p, key, direction, 0, none⟩).without new = c.tell ⟨p, key, direction, 0, none⟩ := by
  have hids := ids_of_extends hc h p key direction
  have hcount : d.count ⟨p, key, direction, 0, none⟩ -
      (d.ids ⟨p, key, direction, 0, none⟩).countP (fun id => decide (id ∈ new)) =
        c.count ⟨p, key, direction, 0, none⟩ := by
    have hfound := (d.ids_perm_matching p key direction).length_eq
    have hkept := (c.ids_perm_matching p key direction).length_eq
    have hsplit := List.length_eq_countP_add_countP (fun id => decide (id ∈ new))
      (l := d.ids ⟨p, key, direction, 0, none⟩)
    rw [← hids, ← List.countP_eq_length_filter] at hkept
    simp only [decide_eq_true_eq, decide_not] at hsplit hkept
    show (d.matching p).length - _ = (c.matching p).length
    omega
  rw [tell, tell, Answer.without, hcount, hids, views_of_extends hc h p key direction]

theorem answer_of_extends (exposed : List Attribute) (root : Query.Group) (viewer : ViewerId)
    (key : OrderKey) (direction : Direction) :
    (d.answer exposed root viewer key direction 0 none).map (·.without new) =
      c.answer exposed root viewer key direction 0 none := by
  unfold answer
  cases compile exposed root viewer with
  | error e => rfl
  | ok p => exact congrArg Except.ok (tell_of_extends hc h p key direction)

end Extension

/-! ## Top theorem -/

/-- **Growing leaves results as they were.**  Further calls put their pictures behind the others
and leave the row of every other picture as it was.  A query runs or fails as before, and what it
tells is what it told before, once the new pictures are taken out of it. -/
theorem answer_foldl_after {c : Catalog} (hc : c.Built) (more : List BuildCall) :
    (more.foldl after c).itemIds = c.itemIds ++ c.newItems more ∧
    (∀ id ∈ c.itemIds, (more.foldl after c).view? id = c.view? id) ∧
    ∀ exposed root viewer key direction,
      ((more.foldl after c).answer exposed root viewer key direction 0 none).map
          (·.without (c.newItems more)) =
        c.answer exposed root viewer key direction 0 none := by
  have h := extends_foldl_after hc more
  exact ⟨h.itemIds, fun id => view?_of_extends hc h, answer_of_extends hc h⟩

/-- A picture that would come first, a tag that is there already and a further folder. -/
def later : List BuildCall :=
  [.item ⟨1⟩ { name := "a.gif", width := 700, height := 500, size := 4096 }, .tag "IFDY" none,
   .subfolder ⟨1⟩ "Foo Files 3"]

theorem answer_foldl_after_later :
    withSmall.newItems later = [⟨2⟩] ∧
      (later.foldl after withSmall).view? ⟨1⟩ = withSmall.view? ⟨1⟩ ∧
      ((later.foldl after withSmall).answer Attribute.all severalDenied ⟨2⟩ .size .descending 0
          none).map (·.without [⟨2⟩]) =
        withSmall.answer Attribute.all severalDenied ⟨2⟩ .size .descending 0 none := by
  have hbuilt : withSmall.Built := built_build _
  have hnew : withSmall.newItems later = [⟨2⟩] := by rfl
  obtain ⟨_, hview, hanswer⟩ := answer_foldl_after hbuilt later
  refine ⟨hnew, hview ⟨1⟩ (by decide +kernel), ?_⟩
  rw [← hnew]
  exact hanswer Attribute.all severalDenied ⟨2⟩ .size .descending

end Catalog

end PictureSearch

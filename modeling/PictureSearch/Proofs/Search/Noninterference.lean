import PictureSearch.Proofs.Search.SamePicture

/-!
# Hidden libraries have no influence

A viewer sees the pictures of some libraries.  Two catalogs agree for a viewer if these pictures
are the same under the same numbers and have the same folders above them, the same library and the
same tags.  Whatever else the catalogs hold, the viewer gets the same answer from both to every
query:

    c.Built → d.Built → AgreeFor viewer c d →
      c.answer exposed root viewer key direction offset limit =
        d.answer exposed root viewer key direction offset limit            (answer_eq_of_agreeFor)
-/

namespace PictureSearch

namespace Catalog

/-- The viewer sees the picture under the number. -/
def Shows (c : Catalog) (viewer : ViewerId) (id : ItemId) (item : Item) : Prop :=
  c.item? id = some item ∧ c.InScope item viewer

/-- Two catalogs agree on what a viewer sees. -/
structure AgreeFor (viewer : ViewerId) (c d : Catalog) : Prop where
  items : ∀ id item, c.Shows viewer id item ↔ d.Shows viewer id item
  /-- The folders from the top down to that of the picture. -/
  folders : ∀ {id item fs}, c.Shows viewer id item → c.FolderLine item.folder fs →
    ∃ gs, d.FolderLine item.folder gs ∧ gs.map Folder.outline = fs.map Folder.outline
  libraries : ∀ {id item l}, c.Shows viewer id item → c.LiesIn item l →
    ∃ m, d.LiesIn item m ∧ m.outline = l.outline
  tags : ∀ {id item}, c.Shows viewer id item → ∀ t ∈ item.tags, c.tag? t = d.tag? t

/-- What a query tells. -/
structure Answer where
  count : Nat
  ids : List ItemId
  views : List ItemView

/-- What a query tells of a catalog. -/
def tell (c : Catalog) (q : ItemQuery) : Answer := ⟨c.count q, c.ids q, c.views q⟩

/-- The answer to a query, or why it cannot run. -/
def answer (c : Catalog) (exposed : List Attribute) (root : Query.Group) (viewer : ViewerId)
    (key : OrderKey) (direction : Direction) (offset : Nat) (limit : Option Nat) :
    Except ExecutionError Answer :=
  (compile exposed root viewer).map fun predicate =>
    c.tell { predicate, key, direction, offset, limit }

/-! ## Lemmas -/

/-- Sorting compares only elements of the list. -/
theorem mergeSort_congr {α : Type} {r s : α → α → Bool} {l : List α}
    (h : ∀ a ∈ l, ∀ b ∈ l, r a b = s a b) : l.mergeSort r = l.mergeSort s := by
  have hmap : (l.mergeSort r).map id = (l.map id).mergeSort s := List.map_mergeSort h
  rwa [List.map_id, List.map_id] at hmap

/-- What a viewer sees in one of two catalogs that agree for the viewer is the same in the other. -/
theorem samePicture_of_agreeFor {c d : Catalog} {viewer : ViewerId} (h : AgreeFor viewer c d)
    {id : ItemId} {item : Item} (hs : c.Shows viewer id item) : SamePicture c d id item where
  here := hs.1
  there := ((h.items _ _).1 hs).1
  folders := h.folders hs
  library := by
    obtain ⟨l, hl, _⟩ := hs.2
    obtain ⟨m, hm, ho⟩ := h.libraries hs hl
    exact ⟨l, m, hl, hm, ho⟩
  tagNames := List.filterMap_congr fun t ht => by rw [h.tags hs t ht]

theorem shows_of_mem_matching {c : Catalog} {viewer : ViewerId} {p : Predicate} {id : ItemId}
    (hid : id ∈ c.matching (.and [.test (.visible viewer), p])) :
    ∃ item, c.Shows viewer id item := by
  obtain ⟨item, hi, hv, _⟩ := (c.mem_matching_visible_iff viewer p id).1 hid
  exact ⟨item, hi, hv⟩

section Answers

variable {c d : Catalog} {viewer : ViewerId} (h : AgreeFor viewer c d) {q : ItemQuery}
  {p : Predicate} (hq : q.predicate = .and [.test (.visible viewer), p])

include h hq

theorem matching_of_agreeFor : c.matching q.predicate = d.matching q.predicate := by
  rw [hq]
  apply matching_ext
  intro id
  rw [mem_matching_visible_iff, mem_matching_visible_iff]
  constructor
  · rintro ⟨item, hi, hv, ha⟩
    obtain ⟨hi', hv'⟩ := (h.items id item).1 ⟨hi, hv⟩
    exact ⟨item, hi', hv', by rwa [← (samePicture_of_agreeFor h ⟨hi, hv⟩).admits_eq]⟩
  · rintro ⟨item, hi, hv, ha⟩
    have hs := (h.items id item).2 ⟨hi, hv⟩
    exact ⟨item, hs.1, hs.2, by rwa [(samePicture_of_agreeFor h hs).admits_eq]⟩

theorem ids_of_agreeFor : c.ids q = d.ids q := by
  have hcompare : ∀ a ∈ c.matching q.predicate, ∀ b ∈ c.matching q.predicate,
      (c.compareIds q.key q.direction a b).isLE = (d.compareIds q.key q.direction a b).isLE := by
    intro a ha b hb
    rw [hq] at ha hb
    obtain ⟨x, hx⟩ := shows_of_mem_matching ha
    obtain ⟨y, hy⟩ := shows_of_mem_matching hb
    unfold compareIds
    rw [hx.1, hy.1, ((h.items a x).1 hx).1, ((h.items b y).1 hy).1]
  have hsorted : c.sorted q = d.sorted q := by
    rw [sorted, sorted, mergeSort_congr hcompare, matching_of_agreeFor h hq]
  rw [ids, ids, hsorted]

theorem views_of_agreeFor (hc : c.Built) (hd : d.Built) : c.views q = d.views q := by
  rw [views, views, ← ids_of_agreeFor h hq]
  refine List.filterMap_congr fun id hid => ?_
  have hm := mem_matching_of_mem_ids hid
  rw [hq] at hm
  obtain ⟨item, hs⟩ := shows_of_mem_matching hm
  exact (samePicture_of_agreeFor h hs).view?_eq hc hd

theorem tell_of_agreeFor (hc : c.Built) (hd : d.Built) : c.tell q = d.tell q := by
  rw [tell, tell, count, count, matching_of_agreeFor h hq, ids_of_agreeFor h hq,
    views_of_agreeFor h hq hc hd]

end Answers

/-! ## Top theorem -/

/-- A viewer learns nothing of libraries that are hidden. -/
theorem answer_eq_of_agreeFor {c d : Catalog} {viewer : ViewerId} (hc : c.Built) (hd : d.Built)
    (h : AgreeFor viewer c d) (exposed : List Attribute) (root : Query.Group) (key : OrderKey)
    (direction : Direction) (offset : Nat) (limit : Option Nat) :
    c.answer exposed root viewer key direction offset limit =
      d.answer exposed root viewer key direction offset limit := by
  unfold answer
  cases hp : compile exposed root viewer with
  | error e => rfl
  | ok predicate =>
    obtain ⟨p, _, rfl⟩ := map_eq_ok_iff.1 hp
    exact congrArg Except.ok (tell_of_agreeFor h rfl hc hd)

/-! ## An instance -/

theorem shows_iff_mem_entries (c : Catalog) (viewer : ViewerId) (id : ItemId) (item : Item) :
    c.Shows viewer id item ↔
      (id.index, item) ∈ c.items.entries.filter fun e => c.visibleTo e.2 viewer := by
  rw [List.mem_filter, ← SortedMap.find?_eq_some_iff, visibleTo_iff]
  rfl

/-- What lies in the library of viewer 2 does not concern viewer 1. -/
theorem agreeFor_withSmall_withRated : AgreeFor ⟨1⟩ withSmall withRated := by
  have only {id : ItemId} {item : Item} (hs : withSmall.Shows ⟨1⟩ id item) :
      item = ⟨"a.png", ⟨0⟩, 640, 480, 0, false, none, 0, [⟨0⟩]⟩ := by
    rw [shows_iff_mem_entries] at hs
    exact congrArg Prod.snd (List.mem_singleton.1 hs)
  refine ⟨fun id item => ?_, fun hs hline => ?_, fun hs hl => ?_, fun hs t ht => ?_⟩
  · rw [shows_iff_mem_entries, shows_iff_mem_entries]
    rfl
  · rw [only hs] at hline ⊢
    cases hline with
    | root hf =>
      cases hf
      exact ⟨_, .root rfl rfl, rfl⟩
    | child hf hp =>
      cases hf
      cases hp
  · rw [only hs] at hl ⊢
    obtain ⟨f, hf, hl⟩ := hl
    cases hf
    cases hl
    exact ⟨_, ⟨_, rfl, rfl⟩, rfl⟩
  · rw [only hs, List.mem_singleton] at ht
    rw [ht]
    rfl

theorem answer_eq_of_agreeFor_withSmall :
    withSmall.Built ∧ withRated.Built ∧ AgreeFor ⟨1⟩ withSmall withRated ∧
      withSmall.answer Attribute.all severalDenied ⟨1⟩ .size .descending 0 none =
        withRated.answer Attribute.all severalDenied ⟨1⟩ .size .descending 0 none :=
  ⟨built_build _, built_build _, agreeFor_withSmall_withRated,
    answer_eq_of_agreeFor (built_build _) (built_build _) agreeFor_withSmall_withRated _ _ _ _ _ _⟩

end Catalog

end PictureSearch

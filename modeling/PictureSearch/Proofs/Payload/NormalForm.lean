import PictureSearch.Proofs.Payload.Truncation

/-!
# The written payload is a normal form

One catalog has many payloads: numbers may take more bytes than they need, entries may come in any
order and under any numbers, of several entries with one number only the last counts, and bytes may
stand behind.  Whatever the bytes, the catalog that is read from them is written in one way, with
each number once and in increasing order, and reading that gives the catalog again:

    ofPayload bytes = .ok c →
      (∃ l rest, Payload.listing.decode bytes = .ok (l, rest) ∧ c.KeepsLast l) ∧
      Payload.listing.decode c.toPayload = .ok (c.listing, []) ∧
      ofPayload c.toPayload = .ok c ∧
      (ofPayload c.toPayload).map toPayload = .ok c.toPayload ∧
      ∀ other d, ofPayload other = .ok d → d.SameRecords c →
        d = c ∧ d.toPayload = c.toPayload                                  (toPayload_normalForm)
-/

namespace PictureSearch

namespace Payload

/-- The entries of a payload in the order they stand there. -/
structure Listing where
  libraries : List (Nat × Library)
  folders : List (Nat × Folder)
  items : List (Nat × Item)
  tags : List (Nat × Tag)

open Coder

/-- Numbers with records, in any order. -/
def entries {α : Type} (c : Coder α) : Coder (List (Nat × α)) := (word64.pair c).list

/-- The entries of a payload, before records are kept under their numbers. -/
def listing : Coder Listing :=
  (version.pair ((entries library).pair ((entries folder).pair ((entries item).pair
    (entries tag))))).map
    (fun (_, libraries, folders, items, tags) => { libraries, folders, items, tags })
    (fun l => ((), l.libraries, l.folders, l.items, l.tags))

/-- The catalog of some entries. -/
def Listing.catalog (l : Listing) : Catalog where
  libraries := .ofList l.libraries
  folders := .ofList l.folders
  items := .ofList l.items
  tags := .ofList l.tags
  tagIndex := .ofTags (.ofList l.tags)

end Payload

namespace Catalog

/-- The records with their numbers, in increasing order of numbers. -/
def listing (c : Catalog) : Payload.Listing :=
  ⟨c.libraries.entries, c.folders.entries, c.items.entries, c.tags.entries⟩

/-- Under each number the catalog keeps the record of the last entry with the number. -/
structure KeepsLast (c : Catalog) (l : Payload.Listing) : Prop where
  libraries : ∀ id, c.library? id = l.libraries.reverse.lookup id.index
  folders : ∀ id, c.folder? id = l.folders.reverse.lookup id.index
  items : ∀ id, c.item? id = l.items.reverse.lookup id.index
  tags : ∀ id, c.tag? id = l.tags.reverse.lookup id.index

/-- The same records under the same numbers. -/
structure SameRecords (c d : Catalog) : Prop where
  libraries : ∀ id, c.library? id = d.library? id
  folders : ∀ id, c.folder? id = d.folder? id
  items : ∀ id, c.item? id = d.item? id
  tags : ∀ id, c.tag? id = d.tag? id

end Catalog

/-! ## Lemmas: the last entry counts -/

namespace SortedMap

variable {υ : Type}

theorem ofList_concat (l : List (Nat × υ)) (e : Nat × υ) :
    ofList (l ++ [e]) = (ofList l).insert e.1 e.2 := by
  rw [ofList, List.foldl_append]
  rfl

theorem find?_ofList (l : List (Nat × υ)) (k : Nat) : (ofList l).find? k = l.reverse.lookup k := by
  induction l using List.reverseRecOn with
  | nil => rfl
  | append_singleton l e ih =>
    rw [ofList_concat, find?_insert, List.reverse_concat, List.lookup_cons, ih]
    by_cases h : k = e.1
    · simp [h]
    · have hne : (k == e.1) = false := beq_eq_false_iff_ne.2 h
      rw [if_neg h, hne]

end SortedMap

/-! ## Lemmas: entries and records -/

namespace Payload

open Coder

variable {α β γ δ : Type}

/-- One coder reads what another does, changed by `f`. -/
def ReadsThrough (f : α → β) (c : Coder α) (d : Coder β) : Prop :=
  ∀ bytes, d.decode bytes = (c.decode bytes).map fun r => (f r.1, r.2)

theorem readsThrough_id (c : Coder α) : ReadsThrough id c c := by
  intro bytes
  cases c.decode bytes <;> rfl

theorem readsThrough_map (c : Coder α) (f : α → β) (write : β → α) :
    ReadsThrough f c (c.map f write) := by
  intro bytes
  simp only [Coder.map, refine]
  cases c.decode bytes <;> rfl

theorem ReadsThrough.map {c : Coder α} {d : Coder β} {f : α → β} (h : ReadsThrough f c d)
    {g : α → γ} {write : γ → α} {g' : β → δ} {write' : δ → β} {f' : γ → δ}
    (hf : ∀ a, g' (f a) = f' (g a)) : ReadsThrough f' (c.map g write) (d.map g' write') := by
  intro bytes
  rw [readsThrough_map, readsThrough_map, h]
  cases c.decode bytes with
  | error e => rfl
  | ok r => simp [Except.map, hf]

theorem ReadsThrough.pair {c : Coder α} {d : Coder β} {c' : Coder γ} {d' : Coder δ} {f : α → β}
    {g : γ → δ} (h : ReadsThrough f c d) (h' : ReadsThrough g c' d') :
    ReadsThrough (Prod.map f g) (c.pair c') (d.pair d') := by
  intro bytes
  have hfirst := h bytes
  simp only [Coder.pair, hfirst]
  cases c.decode bytes with
  | error e => rfl
  | ok r =>
    have hsecond := h' r.2
    simp only [Except.map, hsecond]
    cases c'.decode r.2 <;> rfl

theorem readsThrough_records (c : Coder α) :
    ReadsThrough SortedMap.ofList (entries c) (records c) :=
  readsThrough_map _ _ _

theorem readsThrough_catalog : ReadsThrough Listing.catalog listing catalog := by
  have hfields := (readsThrough_id version).pair ((readsThrough_records library).pair
    ((readsThrough_records folder).pair ((readsThrough_records item).pair
      (readsThrough_records tag))))
  exact hfields.map fun _ => rfl

theorem lossless_listing : listing.Lossless fun l =>
    ∃ c, CatalogFits c ∧ l = c.listing := by
  have hfields := lossless_pair lossless_version
    (lossless_pair (lossless_list (lossless_pair lossless_word64 lossless_library))
      (lossless_pair (lossless_list (lossless_pair lossless_word64 lossless_folder))
        (lossless_pair (lossless_list (lossless_pair lossless_word64 lossless_item))
          (lossless_list (lossless_pair lossless_word64 lossless_tag)))))
  refine lossless_map hfields ?_ fun _ _ => rfl
  rintro _ ⟨c, hc, rfl⟩
  exact ⟨trivial, hc.libraries, hc.folders, hc.items, hc.tags⟩

theorem keepsLast_catalog (l : Listing) : l.catalog.KeepsLast l where
  libraries id := SortedMap.find?_ofList l.libraries id.index
  folders id := SortedMap.find?_ofList l.folders id.index
  items id := SortedMap.find?_ofList l.items id.index
  tags id := SortedMap.find?_ofList l.tags id.index

end Payload

namespace Catalog

/-- Catalogs whose index is that of their tags differ in a record if at all. -/
theorem SameRecords.eq {c d : Catalog} (h : d.SameRecords c) (hc : c.tagIndex = .ofTags c.tags)
    (hd : d.tagIndex = .ofTags d.tags) : d = c := by
  obtain ⟨libraries, folders, items, tags, index⟩ := c
  obtain ⟨libraries', folders', items', tags', index'⟩ := d
  obtain rfl : libraries' = libraries := SortedMap.ext_find? fun k => h.libraries ⟨k⟩
  obtain rfl : folders' = folders := SortedMap.ext_find? fun k => h.folders ⟨k⟩
  obtain rfl : items' = items := SortedMap.ext_find? fun k => h.items ⟨k⟩
  obtain rfl : tags' = tags := SortedMap.ext_find? fun k => h.tags ⟨k⟩
  exact congrArg (Catalog.mk libraries' folders' items' tags') (hd.trans hc.symm)

/-! ## Top theorem -/

/-- **The normal form of a payload.**  What is read is written with each number once and in order,
and no two payloads of the same records are written differently. -/
theorem toPayload_normalForm {bytes : List UInt8} {c : Catalog} (h : ofPayload bytes = .ok c) :
    (∃ l rest, Payload.listing.decode bytes = .ok (l, rest) ∧ c.KeepsLast l) ∧
      Payload.listing.decode c.toPayload = .ok (c.listing, []) ∧
      ofPayload c.toPayload = .ok c ∧
      (ofPayload c.toPayload).map toPayload = .ok c.toPayload ∧
      ∀ other d, ofPayload other = .ok d → d.SameRecords c → d = c ∧ d.toPayload = c.toPayload := by
  have hfits : Payload.CatalogFits c := Obtained.fits (.read h)
  have hagain : ofPayload c.toPayload = .ok c := by
    have := ofPayload_of_fits hfits []
    rwa [List.append_nil] at this
  refine ⟨?_, ?_, hagain, by rw [hagain]; rfl, ?_⟩
  · unfold ofPayload at h
    rw [Payload.readsThrough_catalog] at h
    cases hl : Payload.listing.decode bytes with
    | error e =>
      rw [hl] at h
      cases h
    | ok r =>
      rw [hl] at h
      cases h
      exact ⟨r.1, r.2, rfl, Payload.keepsLast_catalog r.1⟩
  · have := Payload.lossless_listing c.listing ⟨c, hfits, rfl⟩ []
    rwa [List.append_nil] at this
  · intro other d hd hsame
    have hfits' : Payload.CatalogFits d := Obtained.fits (.read hd)
    obtain rfl := hsame.eq hfits.index hfits'.index
    exact ⟨rfl, rfl⟩

/-- Tags in falling order of numbers and with gaps, one of them twice and one under a tag that does
not exist, a picture in no folder, lengths written with more bytes than they take, and bytes
behind. -/
def scattered : List UInt8 :=
  [2, 0, 0, 1, 7, 0x81, 0x80, 0, 0x70, 3, 5, 6, 9, 1, 0, 0, 2, 4, 4,
   0x83, 0, 5, 1, 0x62, 0, 0, 2, 1, 0x61, 1, 9, 0, 5, 1, 0x63, 0, 1, 0x82, 0, 0xFF]

theorem toPayload_normalForm_scattered :
    ∃ c, ofPayload scattered = .ok c ∧
      c.toPayload = [2, 0, 0, 1, 7, 1, 0x70, 3, 5, 6, 9, 1, 0, 0, 2, 4, 4,
        2, 2, 1, 0x61, 1, 9, 0, 5, 1, 0x63, 0, 1, 2] ∧
      ofPayload c.toPayload = .ok c ∧ (c.tag? ⟨5⟩).map (·.name) = some "c" := by
  obtain ⟨c, hc, hbytes, hname⟩ : ∃ c, ofPayload scattered = .ok c ∧
      c.toPayload = [2, 0, 0, 1, 7, 1, 0x70, 3, 5, 6, 9, 1, 0, 0, 2, 4, 4,
        2, 2, 1, 0x61, 1, 9, 0, 5, 1, 0x63, 0, 1, 2] ∧
      (c.tag? ⟨5⟩).map (·.name) = some "c" := ⟨_, rfl, by decide +kernel, by decide +kernel⟩
  exact ⟨c, hc, hbytes, (toPayload_normalForm hc).2.2.1, hname⟩

end Catalog

end PictureSearch

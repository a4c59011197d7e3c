import Mathlib.Data.List.Perm.Subperm
import Mathlib.Logic.Relation
import PictureSearch.Proofs.Payload.Truncation
import PictureSearch.Search.Compile
import PictureSearch.Search.Results

/-!
# Walks that come to no end

A walk goes from a record to its parent and on, until it stands at a record without parent or at no
record.  Reading a payload checks no link, so the parents of what is read may go round in a circle,
and then a walk into it never ends.  This is the only obstacle:

    (∃ n, EndsAfter record parent n id) ↔ ¬ Circles record parent id              (ends_iff)

A walk that ends passes no record twice, so the limit of `climb` never cuts one short: it gives
`endless` where there is no end, and nowhere else.  Catalogs that were built have no circles, and
neither has what is read from their payloads.
-/

namespace PictureSearch

open Relation

/-! ## Statements -/

namespace Ascent

variable {ι ρ : Type}

section

variable (record : ι → Option ρ) (parent : ρ → Option ι)

/-- There is a record under `id`, and `above` is its parent. -/
def Link (id above : ι) : Prop := ∃ r, record id = some r ∧ parent r = some above

/-- The walk from `id` passes `n` records and is then at its end. -/
inductive EndsAfter : (n : Nat) → (id : ι) → Prop
  | missing {id : ι} : record id = none → EndsAfter 0 id
  | root {id : ι} {r : ρ} : record id = some r → parent r = none → EndsAfter 1 id
  | link {n : Nat} {id above : ι} :
      Link record parent id above → EndsAfter n above → EndsAfter (n + 1) id

/-- The walk from `id` comes to a place from which it comes back to that place. -/
def Circles (id : ι) : Prop :=
  ∃ a, ReflTransGen (Link record parent) id a ∧ TransGen (Link record parent) a a

end

/-! ## Lemmas: limits -/

variable {record : ι → Option ρ} {parent : ρ → Option ι}

theorem Link.unique {id a b : ι} (ha : Link record parent id a) (hb : Link record parent id b) :
    a = b := by
  obtain ⟨r, hr, ha⟩ := ha
  obtain ⟨s, hs, hb⟩ := hb
  rw [hr] at hs
  cases hs
  rw [ha] at hb
  exact Option.some.inj hb

/-- A walk with a limit is given up exactly where there is no end within the limit. -/
theorem climb_eq_endless_iff (limit : Nat) (passed : List ρ) (id : ι) :
    climb record parent limit passed id = .endless ↔
      ¬ ∃ n ≤ limit, EndsAfter record parent n id := by
  induction limit generalizing passed id with
  | zero =>
    cases hr : record id with
    | none =>
      have hend : ∃ n ≤ 0, EndsAfter record parent n id := ⟨0, Nat.le_refl 0, .missing hr⟩
      exact iff_of_false (by simp [climb, hr]) (not_not_intro hend)
    | some r =>
      simp only [climb, hr, Option.isNone_some, Bool.false_eq_true, if_false, true_iff]
      rintro ⟨n, hn, hend⟩
      cases hend with
      | missing hm => simp [hr] at hm
      | root | link => omega
  | succ limit ih =>
    cases hr : record id with
    | none =>
      have hend : ∃ n ≤ limit + 1, EndsAfter record parent n id := ⟨0, by omega, .missing hr⟩
      exact iff_of_false (by simp [climb, hr]) (not_not_intro hend)
    | some r =>
      cases hp : parent r with
      | none =>
        have hend : ∃ n ≤ limit + 1, EndsAfter record parent n id := ⟨1, by omega, .root hr hp⟩
        exact iff_of_false (by simp [climb, hr, hp]) (not_not_intro hend)
      | some above =>
        simp only [climb, hr, hp]
        rw [ih, not_iff_not]
        constructor
        · rintro ⟨n, hn, hend⟩
          exact ⟨n + 1, by omega, .link ⟨r, hr, hp⟩ hend⟩
        · rintro ⟨n, hn, hend⟩
          cases hend with
          | missing hm => simp [hr] at hm
          | root hr' hp' =>
            rw [hr] at hr'
            cases hr'
            simp [hp] at hp'
          | link hl hend =>
            rw [hl.unique ⟨r, hr, hp⟩] at hend
            exact ⟨_, by omega, hend⟩

/-! ## Lemmas: circles -/

/-- Where a walk circles, it goes on and circles there. -/
theorem Circles.exists_link {id : ι} (h : Circles record parent id) :
    ∃ above, Link record parent id above ∧ Circles record parent above := by
  obtain ⟨a, hreach, hround⟩ := h
  rcases hreach.cases_head with rfl | ⟨above, hl, hreach⟩
  · obtain ⟨above, hl, hback⟩ := TransGen.head'_iff.1 hround
    exact ⟨above, hl, id, hback, hround⟩
  · exact ⟨above, hl, a, hreach, hround⟩

theorem EndsAfter.not_circles {n : Nat} {id : ι} (h : EndsAfter record parent n id) :
    ¬ Circles record parent id := by
  induction h with
  | missing hm =>
    rintro hc
    obtain ⟨above, ⟨r, hr, _⟩, _⟩ := hc.exists_link
    simp [hr] at hm
  | root hr hp =>
    rintro hc
    obtain ⟨above, ⟨s, hs, hp'⟩, _⟩ := hc.exists_link
    rw [hr] at hs
    cases hs
    simp [hp] at hp'
  | link hl _ ih =>
    rintro hc
    obtain ⟨above, hl', hc⟩ := hc.exists_link
    rw [hl'.unique hl] at hc
    exact ih hc

/-- A walk without end within a limit passes that many records, one more and does not stop. -/
theorem exists_path_of_not_ends {limit : Nat} {id : ι}
    (h : ¬ ∃ n ≤ limit, EndsAfter record parent n id) :
    ∃ path : List ι, (id :: path).IsChain (Link record parent) ∧ path.length = limit ∧
      ∀ a ∈ id :: path, ∃ r, record a = some r := by
  have hexists : ∀ {id : ι}, record id ≠ none → ∃ r, record id = some r := fun hne =>
    Option.ne_none_iff_exists'.1 hne
  induction limit generalizing id with
  | zero =>
    have hr : ∃ r, record id = some r := hexists fun hm => h ⟨0, by omega, .missing hm⟩
    exact ⟨[], .singleton id, rfl, by simpa using hr⟩
  | succ limit ih =>
    obtain ⟨r, hr⟩ := hexists fun hm => h ⟨0, by omega, .missing hm⟩
    cases hp : parent r with
    | none => exact absurd ⟨1, by omega, .root hr hp⟩ h
    | some above =>
      have hl : Link record parent id above := ⟨r, hr, hp⟩
      have hnext : ¬ ∃ n ≤ limit, EndsAfter record parent n above := fun ⟨n, hn, hend⟩ =>
        h ⟨n + 1, by omega, .link hl hend⟩
      obtain ⟨path, hchain, hlen, hall⟩ := ih hnext
      exact ⟨above :: path, .cons_cons hl hchain, by simp [hlen],
        List.forall_mem_cons.2 ⟨⟨r, hr⟩, hall⟩⟩

/-- A path of links that passes a record twice goes round. -/
theorem circles_of_not_nodup {id : ι} {path : List ι}
    (h : (id :: path).IsChain (Link record parent)) (hn : ¬ (id :: path).Nodup) :
    Circles record parent id := by
  have hpaths : (id :: path).Pairwise (TransGen (Link record parent)) :=
    (h.imp fun _ _ => TransGen.single).pairwise
  by_contra hc
  have hround : ∀ a ∈ id :: path, ¬ TransGen (Link record parent) a a := by
    intro a ha hround
    rcases List.mem_cons.1 ha with rfl | ha
    · exact hc ⟨a, .refl, hround⟩
    · exact hc ⟨a, ((List.pairwise_cons.1 hpaths).1 a ha).to_reflTransGen, hround⟩
  refine hn (hpaths.imp_of_mem ?_)
  rintro a b ha _ hab rfl
  exact hround a ha hab

/-- Where every link leads to a lower number there is no way round. -/
theorem not_circles_of_descending {number : ι → Nat}
    (hdown : ∀ {a b : ι}, Link record parent a b → number b < number a) (id : ι) :
    ¬ Circles record parent id := by
  rintro ⟨a, _, hround⟩
  have hlt : ∀ {b : ι}, TransGen (Link record parent) a b → number b < number a := by
    intro b h
    induction h with
    | single hl => exact hdown hl
    | tail _ hl ih => exact Nat.lt_trans (hdown hl) ih
  exact Nat.lt_irrefl _ (hlt hround)

section Numbered

variable {number : ι → Nat} (hnumber : Function.Injective number) {m : SortedMap Nat ρ}

include hnumber

/-- More records than there are cannot be passed without one of them coming twice. -/
theorem circles_of_not_ends {id : ι}
    (h : ¬ ∃ n ≤ m.size, EndsAfter (fun id => m.find? (number id)) parent n id) :
    Circles (fun id => m.find? (number id)) parent id := by
  obtain ⟨path, hchain, hlen, hall⟩ := exists_path_of_not_ends h
  refine circles_of_not_nodup hchain fun hnodup => ?_
  have hkeys : (id :: path).map number ⊆ m.keys := by
    refine fun k hk => SortedMap.mem_keys_iff.2 ?_
    obtain ⟨a, ha, rfl⟩ := List.mem_map.1 hk
    exact hall a ha
  have hle := ((hnodup.map hnumber).subperm hkeys).length_le
  rw [List.length_map, List.length_cons, hlen, SortedMap.length_keys] at hle
  omega

theorem ends_within_iff {id : ι} :
    (∃ n ≤ m.size, EndsAfter (fun id => m.find? (number id)) parent n id) ↔
      ¬ Circles (fun id => m.find? (number id)) parent id := by
  constructor
  · rintro ⟨n, _, hend⟩
    exact hend.not_circles
  · intro hc
    by_contra hn
    exact hc (circles_of_not_ends hnumber hn)

theorem ends_iff {id : ι} :
    (∃ n, EndsAfter (fun id => m.find? (number id)) parent n id) ↔
      ¬ Circles (fun id => m.find? (number id)) parent id := by
  constructor
  · rintro ⟨n, hend⟩
    exact hend.not_circles
  · intro hc
    obtain ⟨n, _, hend⟩ := (ends_within_iff hnumber).2 hc
    exact ⟨n, hend⟩

/-- The limit cuts short only what has no end. -/
theorem climb_size_eq_endless_iff {id : ι} :
    climb (fun id => m.find? (number id)) parent m.size [] id = .endless ↔
      Circles (fun id => m.find? (number id)) parent id := by
  rw [climb_eq_endless_iff, ends_within_iff hnumber, not_not]

end Numbered

end Ascent

namespace Catalog

open Ascent

section

variable (c : Catalog)

def TagEndsAfter : Nat → TagId → Prop := EndsAfter c.tag? (·.parent)

def FolderEndsAfter : Nat → FolderId → Prop := EndsAfter c.folder? (·.parent)

def TagCircles : TagId → Prop := Circles c.tag? (·.parent)

def FolderCircles : FolderId → Prop := Circles c.folder? (·.parent)

/-- Every walk comes to an end, and passes no more records than there are. -/
structure WalksEnd : Prop where
  tag : ∀ id, ∃ n ≤ c.tags.size, c.TagEndsAfter n id
  folder : ∀ id, ∃ n ≤ c.folders.size, c.FolderEndsAfter n id
  /-- The row of a picture takes the walk from its folder. -/
  row : ∀ q, ∀ id ∈ c.ids q, ∀ item, c.item? id = some item →
    ∃ n ≤ c.folders.size, c.FolderEndsAfter n item.folder

/-- No walk goes round. -/
structure Acyclic : Prop where
  tag : ∀ id, ¬ c.TagCircles id
  folder : ∀ id, ¬ c.FolderCircles id

/-! ## Lemmas: catalogs -/

theorem tagLine_eq_endless_iff (id : TagId) : c.tagLine id = .endless ↔ c.TagCircles id :=
  climb_size_eq_endless_iff tagIndex_injective

theorem folderLine_eq_endless_iff (id : FolderId) :
    c.folderLine id = .endless ↔ c.FolderCircles id :=
  climb_size_eq_endless_iff folderIndex_injective

theorem walksEnd_iff_acyclic : c.WalksEnd ↔ c.Acyclic := by
  have htag (id : TagId) : (∃ n ≤ c.tags.size, c.TagEndsAfter n id) ↔ ¬ c.TagCircles id :=
    ends_within_iff tagIndex_injective
  have hfolder (id : FolderId) :
      (∃ n ≤ c.folders.size, c.FolderEndsAfter n id) ↔ ¬ c.FolderCircles id :=
    ends_within_iff folderIndex_injective
  constructor
  · exact fun h => ⟨fun id => (htag id).1 (h.tag id), fun id => (hfolder id).1 (h.folder id)⟩
  · exact fun h => ⟨fun id => (htag id).2 (h.tag id), fun id => (hfolder id).2 (h.folder id),
      fun _ _ _ item _ => (hfolder item.folder).2 (h.folder _)⟩

end

/-- In a catalog that was built every record comes after its parent. -/
theorem Built.acyclic {c : Catalog} (h : c.Built) : c.Acyclic where
  tag := not_circles_of_descending fun ⟨_, hr, hp⟩ =>
    (above_of_ranked TagId.index h.links.tags.ranked hr hp).1
  folder := not_circles_of_descending fun ⟨_, hr, hp⟩ =>
    (above_of_ranked FolderId.index h.links.folders.ranked hr hp).1

/-! ## Top theorem -/

/-- **Circles are all that keeps a walk from ending.** Whatever payload a catalog was read from,
the walk from a tag or from a folder ends unless it leads into a circle, and is given up exactly
where it does not end; so all walks end, those for the rows of every result included, where nothing
goes round.  What is read from the payload of a catalog that was built is such a catalog. -/
theorem walks_end_unless_circles :
    (∀ c : Catalog,
      (∀ id, ((∃ n, c.TagEndsAfter n id) ↔ ¬ c.TagCircles id) ∧
        (c.tagLine id = .endless ↔ c.TagCircles id)) ∧
      (∀ id, ((∃ n, c.FolderEndsAfter n id) ↔ ¬ c.FolderCircles id) ∧
        (c.folderLine id = .endless ↔ c.FolderCircles id)) ∧
      (c.WalksEnd ↔ c.Acyclic)) ∧
    ∀ calls, calls.length < UInt64.size → (∀ call ∈ calls, call.TextsFit) →
      ∃ c, ofPayload (build calls).toPayload = .ok c ∧ c.WalksEnd := by
  refine ⟨fun c => ⟨fun id => ⟨?_, c.tagLine_eq_endless_iff id⟩,
    fun id => ⟨?_, c.folderLine_eq_endless_iff id⟩, c.walksEnd_iff_acyclic⟩, ?_⟩
  · exact ends_iff tagIndex_injective
  · exact ends_iff folderIndex_injective
  · intro calls hcount htexts
    have hread := ofPayload_of_fits (Obtained.built hcount htexts).fits []
    rw [List.append_nil] at hread
    exact ⟨build calls, hread, (walksEnd_iff_acyclic _).2 (built_build calls).acyclic⟩

/-- A tag below another, written and read back. -/
theorem walks_end_unless_circles_twoTags :
    ∃ c, ofPayload (build [.tag "IFDY" none, .tag "Test Tag 1" (some ⟨0⟩)]).toPayload = .ok c ∧
      c.WalksEnd :=
  walks_end_unless_circles.2 _ (by decide) (by decide)

/-- The bytes of a catalog where a tag, and the folder of a picture, are their own parents. -/
def ownParents : List UInt8 :=
  [2, 1, 0, 1, 0x6C, 1, 0x6C, 1, 0x2F, 0, 0, 1, 0, 1, 0, 1, 0x66, 0, 1, 0, 0, 1, 0,
   1, 0, 1, 0x69, 0, 1, 1, 0, 0, 0, 0, 0, 1, 0, 1, 0x74, 1, 0, 0]

/-- The bytes are read, and then neither the path of the tag nor the row of the picture, which every
viewer sees, comes to an end. -/
theorem endless_ownParents :
    ∃ c item, ofPayload ownParents = .ok c ∧ (∀ n, ¬ c.TagEndsAfter n ⟨0⟩) ∧
      c.item? ⟨0⟩ = some item ∧ (∀ n, ¬ c.FolderEndsAfter n item.folder) ∧
      ∃ p, compile Attribute.all ⟨.and, []⟩ ⟨0⟩ = .ok p ∧
        ⟨0⟩ ∈ c.ids ⟨p, .name, .ascending, 0, none⟩ := by
  have hread : ∃ c : Catalog, ofPayload ownParents = .ok c ∧
      (∃ t, c.tag? ⟨0⟩ = some t ∧ t.parent = some ⟨0⟩) ∧
      (∃ item f, c.item? ⟨0⟩ = some item ∧ c.folder? item.folder = some f ∧
        f.parent = some item.folder) ∧
      ⟨0⟩ ∈ c.ids ⟨.and [.test (.visible ⟨0⟩), .all], .name, .ascending, 0, none⟩ :=
    ⟨_, rfl, ⟨_, rfl, rfl⟩, ⟨_, _, rfl, rfl, rfl⟩, by decide +kernel⟩
  obtain ⟨c, hc, htag, ⟨item, f, hitem, hfolder⟩, hids⟩ := hread
  have htags : c.TagCircles ⟨0⟩ := ⟨⟨0⟩, .refl, .single htag⟩
  have hfolders : c.FolderCircles item.folder := ⟨_, .refl, .single ⟨f, hfolder⟩⟩
  exact ⟨c, item, hc, fun n hend => hend.not_circles htags, hitem,
    fun n hend => hend.not_circles hfolders, _, rfl, hids⟩

end Catalog

end PictureSearch

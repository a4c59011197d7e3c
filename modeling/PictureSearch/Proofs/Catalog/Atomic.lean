import PictureSearch.Proofs.Catalog.Resolving
import PictureSearch.Proofs.Catalog.Steps

/-!
# Calls succeed as a whole or change nothing

A call that adds a record fails just where its arguments do not fit the catalog, and reports the
fault that is checked first; one that succeeds adds its record, lists it at the end of one list and
changes nothing else (`added_allOrNothing`).  Faults and gains are told by what lookups find, so
that neither mentions how a call is made:

    c.Built → (c.added call = .error e ↔ c.Fault call e)                      (added_eq_error_iff)
    c.Adds call d → c.Gains d call                                                (gains_of_adds)
-/

namespace PictureSearch

/-- The members of a list, each once and in the order of their first mentions. -/
structure FirstMentions {α : Type} [DecidableEq α] (l kept : List α) : Prop where
  mem_iff : ∀ a, a ∈ kept ↔ a ∈ l
  inOrder : kept.Pairwise fun a b => l.idxOf a < l.idxOf b

namespace Catalog

/-! ## Faults -/

/-- The arguments of a call do not fit the catalog. -/
def Faulty (c : Catalog) : BuildCall → Prop
  | .library .. => False
  | .folder library _ => c.library? library = none
  | .subfolder parent _ => c.folder? parent = none
  | .tag name parent =>
    name = "" ∨ '/' ∈ name.toList ∨ (∃ above, parent = some above ∧ c.tag? above = none) ∨
      ∃ id t, c.tag? id = some t ∧ t.parent = parent ∧ t.name = name
  | .item folder item => c.folder? folder = none ∨ ∃ id ∈ item.tags, c.tag? id = none

/-- What is reported of a call; of several faults the one that is checked first. -/
inductive Fault (c : Catalog) : BuildCall → BuildError → Prop
  | noLibrary {library : LibraryId} (name : String) :
      c.library? library = none → Fault c (.folder library name) (.noLibrary library)
  | noParentFolder {parent : FolderId} (name : String) :
      c.folder? parent = none → Fault c (.subfolder parent name) .noParentFolder
  | invalidTagName {name : String} (parent : Option TagId) :
      name = "" ∨ '/' ∈ name.toList → Fault c (.tag name parent) (.invalidTagName name)
  | noParentTag {name : String} {parent : TagId} :
      name ≠ "" → '/' ∉ name.toList → c.tag? parent = none →
        Fault c (.tag name (some parent)) (.noParentTag parent)
  | tagExists {id parent : TagId} {t : Tag} :
      c.tag? id = some t → t.parent = some parent →
        Fault c (.tag t.name (some parent)) (.tagExists t.name parent)
  | rootTagExists {id : TagId} {t : Tag} :
      c.tag? id = some t → t.parent = none →
        Fault c (.tag t.name none) (.rootTagExists t.name)
  | noFolder {folder : FolderId} (item : NewItem) :
      c.folder? folder = none → Fault c (.item folder item) (.noFolder folder)
  | noTag {folder : FolderId} {f : Folder} {item : NewItem} {before after : List TagId}
      {missing : TagId} :
      c.folder? folder = some f → item.tags = before ++ missing :: after →
        (∀ id ∈ before, ∃ t, c.tag? id = some t) → c.tag? missing = none →
          Fault c (.item folder item) (.noTag missing)

/-! ## What a call adds -/

/-- How many records there are of the kind that a call adds to. -/
def countFor (c : Catalog) : BuildCall → Nat
  | .library .. => c.libraries.size
  | .folder .. | .subfolder .. => c.folders.size
  | .tag .. => c.tags.size
  | .item .. => c.items.size

/-- The catalog `d` is `c` with the record of a call under the next number, which stands at the end
of the list of its library, its parent or its folder.  All other records are those of `c`. -/
def Gains (c d : Catalog) : BuildCall → Prop
  | .library displayName machineName absolutePath nsfw owner =>
    d.library? = Function.update c.library? ⟨c.libraries.size⟩
        (some ⟨displayName, machineName, absolutePath, nsfw, owner, []⟩) ∧
      d.folders = c.folders ∧ d.items = c.items ∧ d.tags = c.tags ∧ d.tagIndex = c.tagIndex
  | .folder library name =>
    (∃ l, c.library? library = some l ∧
        d.library? = Function.update c.library? library
          (some { l with folders := l.folders ++ [⟨c.folders.size⟩] })) ∧
      d.folder? = Function.update c.folder? ⟨c.folders.size⟩ (some ⟨name, library, none, [], []⟩) ∧
      d.items = c.items ∧ d.tags = c.tags ∧ d.tagIndex = c.tagIndex
  | .subfolder parent name =>
    (∃ p, c.folder? parent = some p ∧
        d.folder? = Function.update
          (Function.update c.folder? ⟨c.folders.size⟩
            (some ⟨name, p.library, some parent, [], []⟩))
          parent (some { p with children := p.children ++ [⟨c.folders.size⟩] })) ∧
      d.libraries = c.libraries ∧ d.items = c.items ∧ d.tags = c.tags ∧ d.tagIndex = c.tagIndex
  | .tag name none =>
    d.tag? = Function.update c.tag? ⟨c.tags.size⟩ (some ⟨name, none, []⟩) ∧
      d.tagsNamed = Function.update c.tagsNamed name (c.tagsNamed name ++ [⟨c.tags.size⟩]) ∧
      d.libraries = c.libraries ∧ d.folders = c.folders ∧ d.items = c.items
  | .tag name (some parent) =>
    (∃ p, c.tag? parent = some p ∧
        d.tag? = Function.update
          (Function.update c.tag? ⟨c.tags.size⟩ (some ⟨name, some parent, []⟩))
          parent (some { p with children := p.children ++ [⟨c.tags.size⟩] })) ∧
      d.tagsNamed = Function.update c.tagsNamed name (c.tagsNamed name ++ [⟨c.tags.size⟩]) ∧
      d.libraries = c.libraries ∧ d.folders = c.folders ∧ d.items = c.items
  | .item folder item =>
    (∃ tags, FirstMentions item.tags tags ∧
        d.item? = Function.update c.item? ⟨c.items.size⟩
          (some ⟨item.name, folder, item.width, item.height, item.rating, item.nsfw, item.comment,
            item.size, tags⟩)) ∧
      (∃ f, c.folder? folder = some f ∧
        d.folder? = Function.update c.folder? folder
          (some { f with items := f.items ++ [⟨c.items.size⟩] })) ∧
      d.libraries = c.libraries ∧ d.tags = c.tags ∧ d.tagIndex = c.tagIndex

/-! ## Lemmas: faults -/

variable {c : Catalog}

/-- The first tag that is missing comes behind tags that are there. -/
theorem find?_missing_eq_some_iff {ids : List TagId} {missing : TagId} :
    (ids.find? fun id => (c.tag? id).isNone) = some missing ↔
      c.tag? missing = none ∧ ∃ before after, ids = before ++ missing :: after ∧
        ∀ id ∈ before, ∃ t, c.tag? id = some t := by
  rw [List.find?_eq_some_iff_append, Option.isNone_iff_eq_none]
  have hthere (id : TagId) : (!(c.tag? id).isNone) = true ↔ ∃ t, c.tag? id = some t := by
    simp [Option.isSome_iff_exists]
  simp only [hthere]

theorem checkTag_eq_error_iff (h : c.Built) {name : String} {parent : Option TagId}
    {e : BuildError} : c.checkTag name parent = .error e ↔ c.Fault (.tag name parent) e := by
  have hinvalid : (name.isEmpty || name.toList.contains '/') = true ↔
      name = "" ∨ '/' ∈ name.toList := by
    rw [Bool.or_eq_true, String.isEmpty_iff, List.contains_iff_mem]
  have hsibling {parent : Option TagId} {name : String} :
      (c.childTag? parent name).isSome = true ↔
        ∃ id t, c.tag? id = some t ∧ t.parent = parent ∧ t.name = name := by
    rw [Option.isSome_iff_exists]
    exact exists_congr fun id => h.childTag?_eq_some_iff
  unfold checkTag
  constructor
  · intro he
    split at he
    · next hn =>
      cases he
      exact .invalidTagName parent (hinvalid.1 hn)
    · next hn =>
      rw [hinvalid, not_or] at hn
      split at he
      · next above =>
        split at he
        · next ht =>
          cases he
          exact .noParentTag hn.1 hn.2 (Option.isNone_iff_eq_none.1 ht)
        · split at he
          · next hs =>
            cases he
            obtain ⟨id, t, ht, hp, rfl⟩ := hsibling.1 hs
            exact .tagExists ht hp
          · cases he
      · split at he
        · next hs =>
          cases he
          obtain ⟨id, t, ht, hp, rfl⟩ := hsibling.1 hs
          exact .rootTagExists ht hp
        · cases he
  · intro hf
    cases hf with
    | invalidTagName _ hn => rw [if_pos (hinvalid.2 hn)]
    | noParentTag hne hslash ht =>
      rw [if_neg fun hn => (hinvalid.1 hn).elim hne hslash]
      simp [ht]
    | @tagExists id parent t ht hp =>
      obtain ⟨hne, hslash⟩ := h.links.tags.names.usable ht
      obtain ⟨_, s, hs, _⟩ := above_of_ranked TagId.index h.links.tags.ranked ht hp
      have hs : c.tag? parent = some s := hs
      rw [if_neg fun hn => (hinvalid.1 hn).elim hne hslash]
      simp [hs, hsibling.2 ⟨id, t, ht, hp, rfl⟩]
    | @rootTagExists id t ht hp =>
      obtain ⟨hne, hslash⟩ := h.links.tags.names.usable ht
      rw [if_neg fun hn => (hinvalid.1 hn).elim hne hslash]
      simp [hsibling.2 ⟨id, t, ht, hp, rfl⟩]

/-- A call is refused for its first fault. -/
theorem added_eq_error_iff (h : c.Built) {call : BuildCall} {e : BuildError} :
    c.added call = .error e ↔ c.Fault call e := by
  cases call with
  | library =>
    constructor
    · intro he
      cases he
    · intro hf
      cases hf
  | folder library name =>
    rw [added, map_eq_error_iff, addFolder]
    constructor
    · intro he
      cases hl : c.library? library with
      | none =>
        simp only [hl] at he
        cases he
        exact .noLibrary name hl
      | some l => simp [hl] at he
    · intro hf
      cases hf with
      | noLibrary _ hl => simp [hl]
  | subfolder parent name =>
    rw [added, map_eq_error_iff, addSubfolder]
    constructor
    · intro he
      cases hp : c.folder? parent with
      | none =>
        simp only [hp] at he
        cases he
        exact .noParentFolder name hp
      | some p => simp [hp] at he
    · intro hf
      cases hf with
      | noParentFolder _ hp => simp [hp]
  | tag name parent =>
    rw [added, map_eq_error_iff, addTag, bind_eq_error_iff, ← checkTag_eq_error_iff h]
    constructor
    · rintro (he | ⟨_, _, he⟩)
      · exact he
      · cases he
    · exact Or.inl
  | item folder item =>
    rw [added, map_eq_error_iff, addItem]
    constructor
    · intro he
      cases hf : c.folder? folder with
      | none =>
        simp only [hf] at he
        cases he
        exact .noFolder item hf
      | some f =>
        cases ht : item.tags.find? fun id => (c.tag? id).isNone with
        | none => simp [hf, ht] at he
        | some missing =>
          simp only [hf, ht, Option.isNone_some, Bool.false_eq_true, if_false] at he
          cases he
          obtain ⟨hmissing, before, after, hsplit, hbefore⟩ := find?_missing_eq_some_iff.1 ht
          exact .noTag hf hsplit hbefore hmissing
    · intro hf
      cases hf with
      | noFolder _ hf => simp [hf]
      | @noTag _ f _ before after missing hf hsplit hbefore hmissing =>
        have ht := find?_missing_eq_some_iff.2 ⟨hmissing, before, after, hsplit, hbefore⟩
        simp [hf, ht]

/-- There is a fault to report just where the arguments do not fit. -/
theorem exists_fault_iff {call : BuildCall} : (∃ e, c.Fault call e) ↔ c.Faulty call := by
  constructor
  · rintro ⟨e, hf⟩
    cases hf with
    | noLibrary _ hl => exact hl
    | noParentFolder _ hp => exact hp
    | invalidTagName _ hn => exact hn.elim Or.inl fun hslash => Or.inr (Or.inl hslash)
    | noParentTag _ _ hp => exact Or.inr (Or.inr (Or.inl ⟨_, rfl, hp⟩))
    | tagExists ht hp => exact Or.inr (Or.inr (Or.inr ⟨_, _, ht, hp, rfl⟩))
    | rootTagExists ht hp => exact Or.inr (Or.inr (Or.inr ⟨_, _, ht, hp, rfl⟩))
    | noFolder _ hf => exact Or.inl hf
    | noTag _ hsplit _ hmissing =>
      refine Or.inr ⟨_, ?_, hmissing⟩
      rw [hsplit]
      exact List.mem_append_right _ List.mem_cons_self
  · intro hf
    cases call with
    | library => cases hf
    | folder library name => exact ⟨_, .noLibrary name hf⟩
    | subfolder parent name => exact ⟨_, .noParentFolder name hf⟩
    | tag name parent =>
      by_cases hn : name = "" ∨ '/' ∈ name.toList
      · exact ⟨_, .invalidTagName parent hn⟩
      · obtain ⟨hne, hslash⟩ := not_or.1 hn
        rcases hf with hempty | hmem | ⟨above, rfl, hp⟩ | ⟨id, t, ht, hp, rfl⟩
        · exact absurd hempty hne
        · exact absurd hmem hslash
        · exact ⟨_, .noParentTag hne hslash hp⟩
        · cases parent with
          | none => exact ⟨_, .rootTagExists ht hp⟩
          | some parent => exact ⟨_, .tagExists ht hp⟩
    | item folder item =>
      cases hfolder : c.folder? folder with
      | none => exact ⟨_, .noFolder item hfolder⟩
      | some f =>
        rcases hf with hnone | ⟨id, hid, hmissing⟩
        · rw [hfolder] at hnone
          cases hnone
        · have hsome : (item.tags.find? fun id => (c.tag? id).isNone).isSome := by
            rw [List.find?_isSome]
            exact ⟨id, hid, by simp [hmissing]⟩
          obtain ⟨missing, ht⟩ := Option.isSome_iff_exists.1 hsome
          obtain ⟨hmissing, before, after, hsplit, hbefore⟩ := find?_missing_eq_some_iff.1 ht
          exact ⟨_, .noTag hfolder hsplit hbefore hmissing⟩

/-! ## Lemmas: what a call adds -/

theorem firstMentions_keepFirst {α : Type} [DecidableEq α] (l : List α) :
    FirstMentions l (keepFirst l) := by
  refine ⟨fun a => mem_keepFirst_iff, ?_⟩
  induction l using List.reverseRecOn with
  | nil => exact .nil
  | append_singleton l a ih =>
    have hlast : keepFirst (l ++ [a]) =
        if a ∈ keepFirst l then keepFirst l else keepFirst l ++ [a] := by
      unfold keepFirst
      rw [List.foldl_append]
      rfl
    -- what is mentioned in `l` stays at its place
    have hold : (keepFirst l).Pairwise fun x y => (l ++ [a]).idxOf x < (l ++ [a]).idxOf y := by
      refine ih.imp_of_mem fun {x y} hx hy hlt => ?_
      rw [mem_keepFirst_iff] at hx hy
      rwa [List.idxOf_append_of_mem hx, List.idxOf_append_of_mem hy]
    rw [hlast]
    split
    · exact hold
    · next ha =>
      rw [mem_keepFirst_iff] at ha
      refine List.pairwise_append.2 ⟨hold, List.pairwise_singleton _ a, fun x hx y hy => ?_⟩
      rw [mem_keepFirst_iff] at hx
      rw [List.mem_singleton.1 hy, List.idxOf_append_of_mem hx, List.idxOf_append_of_notMem ha]
      have := List.idxOf_lt_length_of_mem hx
      omega

section Lookup

variable {ι υ : Type} [DecidableEq ι] {m : SortedMap Nat υ}

/-- Looking up where a record was added. -/
theorem lookup_insert (number : ι → Nat) (hinj : number.Injective) (id : ι) (v : υ) :
    (fun k => (m.insert (number id) v).find? (number k)) =
      Function.update (fun k => m.find? (number k)) id (some v) := by
  funext k
  rw [SortedMap.find?_insert, Function.update_apply]
  by_cases hk : k = id
  · rw [if_pos hk, if_pos (congrArg number hk)]
  · rw [if_neg hk, if_neg fun hn => hk (hinj hn)]

/-- Looking up where a record was changed. -/
theorem lookup_update (number : ι → Nat) (hinj : number.Injective) {id : ι} {r : υ}
    (hr : m.find? (number id) = some r) (f : υ → υ) :
    (fun k => (m.update (number id) f).find? (number k)) =
      Function.update (fun k => m.find? (number k)) id (some (f r)) := by
  funext k
  rw [SortedMap.find?_update, Function.update_apply]
  by_cases hk : k = id
  · rw [if_pos hk, if_pos (congrArg number hk), hk, hr]
    rfl
  · rw [if_neg hk, if_neg fun hn => hk (hinj hn)]

/-- Looking up where a record was added below one that is there. -/
theorem lookup_insert_update (number : ι → Nat) (hinj : number.Injective) (hm : m.Gapless)
    {new id : ι} (hnew : number new = m.size) {r : υ} (hr : m.find? (number id) = some r) (v : υ)
    (f : υ → υ) :
    (fun k => ((m.insert (number new) v).update (number id) f).find? (number k)) =
      Function.update (Function.update (fun k => m.find? (number k)) new (some v)) id
        (some (f r)) := by
  have hr' : (m.insert (number new) v).find? (number id) = some r := by
    rw [hnew, ← hm.freshKey_eq_size]
    exact hm.find?_insert_of_find? hr v
  rw [lookup_update number hinj hr', lookup_insert number hinj]

end Lookup

theorem named_add_eq (c : Catalog) (name : String) (id : TagId) :
    (c.tagIndex.add name id).named =
      Function.update c.tagsNamed name (c.tagsNamed name ++ [id]) := by
  funext other
  rw [TagIndex.named_add, Function.update_apply]
  rfl

/-- What a call that succeeds adds, told by lookups. -/
theorem gains_of_adds (h : c.Built) {call : BuildCall} {d : Catalog} (ha : c.Adds call d) :
    c.Gains d call := by
  have hfolders := h.links.folders.ranked.gapless
  have htags := h.links.tags.ranked.gapless
  cases ha with
  | library displayName machineName absolutePath nsfw owner =>
    rw [h.links.folders.gapless.freshKey_eq_size]
    exact ⟨lookup_insert _ libraryIndex_injective ⟨c.libraries.size⟩ _, rfl, rfl, rfl, rfl⟩
  | folder name hl =>
    rw [hfolders.freshKey_eq_size]
    exact ⟨⟨_, hl, lookup_update _ libraryIndex_injective hl _⟩,
      lookup_insert _ folderIndex_injective ⟨c.folders.size⟩ _, rfl, rfl, rfl⟩
  | subfolder name hp =>
    rw [hfolders.freshKey_eq_size]
    have hnew : FolderId.index ⟨c.folders.size⟩ = c.folders.size := rfl
    exact ⟨⟨_, hp, lookup_insert_update _ folderIndex_injective hfolders hnew hp _ _⟩, rfl, rfl,
      rfl, rfl⟩
  | rootTag hcheck =>
    rw [htags.freshKey_eq_size]
    exact ⟨lookup_insert _ tagIndex_injective ⟨c.tags.size⟩ _, c.named_add_eq _ _, rfl, rfl, rfl⟩
  | childTag hcheck =>
    obtain ⟨p, hp⟩ := (checkTag_eq_ok_iff.1 hcheck).2.1 _ rfl
    rw [htags.freshKey_eq_size]
    have hnew : TagId.index ⟨c.tags.size⟩ = c.tags.size := rfl
    exact ⟨⟨p, hp, lookup_insert_update _ tagIndex_injective htags hnew hp _ _⟩,
      c.named_add_eq _ _, rfl, rfl, rfl⟩
  | item hf ht =>
    rw [h.links.items.gapless.freshKey_eq_size]
    exact ⟨⟨_, firstMentions_keepFirst _, lookup_insert _ itemIndex_injective ⟨c.items.size⟩ _⟩,
      ⟨_, hf, lookup_update _ folderIndex_injective hf _⟩, rfl, rfl, rfl⟩

/-- A call that gives a number has added its record under it. -/
theorem adds_of_added (h : c.Built) {call : BuildCall} {n : Nat} (hn : c.added call = .ok n) :
    c.Adds call (c.after call) ∧ n = c.countFor call := by
  have hfolders := h.links.folders.ranked.gapless.freshKey_eq_size
  cases call with
  | library =>
    cases hn
    exact ⟨.library .., h.links.folders.gapless.freshKey_eq_size⟩
  | folder library name =>
    obtain ⟨⟨d, id⟩, hok, rfl⟩ := map_eq_ok_iff.1 hn
    obtain ⟨ha, rfl⟩ := addFolder_eq_ok_iff.1 hok
    exact ⟨ha.after_eq.symm ▸ ha, hfolders⟩
  | subfolder parent name =>
    obtain ⟨⟨d, id⟩, hok, rfl⟩ := map_eq_ok_iff.1 hn
    obtain ⟨ha, rfl⟩ := addSubfolder_eq_ok_iff.1 hok
    exact ⟨ha.after_eq.symm ▸ ha, hfolders⟩
  | tag name parent =>
    obtain ⟨⟨d, id⟩, hok, rfl⟩ := map_eq_ok_iff.1 hn
    obtain ⟨ha, rfl⟩ := addTag_eq_ok_iff.1 hok
    exact ⟨ha.after_eq.symm ▸ ha, h.links.tags.ranked.gapless.freshKey_eq_size⟩
  | item folder item =>
    obtain ⟨⟨d, id⟩, hok, rfl⟩ := map_eq_ok_iff.1 hn
    obtain ⟨ha, rfl⟩ := addItem_eq_ok_iff.1 hok
    exact ⟨ha.after_eq.symm ▸ ha, h.links.items.gapless.freshKey_eq_size⟩

/-- A call that gives an error has changed nothing. -/
theorem after_of_added_error {call : BuildCall} {e : BuildError} (he : c.added call = .error e) :
    c.after call = c := by
  cases call with
  | library => cases he
  | folder | subfolder | tag | item => exact getD_of_eq_error (map_eq_error_iff.1 he)

/-! ## Top theorem -/

/-- **Calls succeed as a whole or change nothing.**  Taken step by step a call does what it does at
once.  It fails just where its arguments do not fit, reports the fault that is checked first, and
leaves the catalog as it was.  Otherwise its record gets the number of those before it, stands at
the end of one list, and nothing else changes. -/
theorem added_allOrNothing (h : c.Built) (call : BuildCall) :
    (Building.ofCall call).on c = (c.added call, c.after call) ∧
    ((∃ e, c.added call = .error e) ↔ c.Faulty call) ∧
    (∀ e, c.added call = .error e → c.Fault call e ∧ c.after call = c) ∧
    ∀ n, c.added call = .ok n → n = c.countFor call ∧ c.Gains (c.after call) call := by
  refine ⟨Building.on_ofCall c call, ?_, fun e he => ?_, fun n hn => ?_⟩
  · rw [← exists_fault_iff]
    exact exists_congr fun e => added_eq_error_iff h
  · exact ⟨(added_eq_error_iff h).1 he, after_of_added_error he⟩
  · obtain ⟨ha, hcount⟩ := adds_of_added h hn
    exact ⟨hcount, gains_of_adds h ha⟩

/-- A tag that is there already, and a folder for viewer 2. -/
theorem added_allOrNothing_withRated :
    (Building.ofCall (.tag "IFDY" none)).on withRated =
        (.error (.rootTagExists "IFDY"), withRated) ∧
      withRated.Faulty (.tag "IFDY" none) ∧ ¬withRated.Faulty (.folder ⟨1⟩ "Foo Files 3") ∧
      withRated.added (.folder ⟨1⟩ "Foo Files 3") = .ok 2 ∧
      withRated.Gains (withRated.after (.folder ⟨1⟩ "Foo Files 3"))
        (.folder ⟨1⟩ "Foo Files 3") := by
  have hbuilt : withRated.Built := built_build _
  have herror : withRated.added (.tag "IFDY" none) = .error (.rootTagExists "IFDY") := by rfl
  have hok : withRated.added (.folder ⟨1⟩ "Foo Files 3") = .ok 2 := by rfl
  obtain ⟨hsteps, hfaulty, hfails, _⟩ := added_allOrNothing hbuilt (.tag "IFDY" none)
  obtain ⟨_, hfits, _, hgains⟩ := added_allOrNothing hbuilt (.folder ⟨1⟩ "Foo Files 3")
  refine ⟨?_, hfaulty.1 ⟨_, herror⟩, fun h => ?_, hok, (hgains 2 hok).2⟩
  · rw [hsteps, herror, (hfails _ herror).2]
  · obtain ⟨e, he⟩ := hfits.2 h
    rw [hok] at he
    cases he

end Catalog

end PictureSearch

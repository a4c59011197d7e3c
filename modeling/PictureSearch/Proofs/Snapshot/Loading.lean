import PictureSearch.Proofs.Snapshot.Pictures
import PictureSearch.Proofs.Snapshot.Tags

/-!
# Loading snapshots

A snapshot can be loaded just where it is `Loadable`, and the catalog then `Depicts` it: it has the
snapshot's tag paths, its libraries in their order, its folders each in its place, and its pictures
where they lie, and nothing else:

    ((∃ c, ofSnapshot s = .ok c) ↔ s.Loadable) ∧ ∀ c, ofSnapshot s = .ok c → c.Depicts s
                                                                           (ofSnapshot_faithful)
-/

namespace PictureSearch.Catalog

/-! ## Statements -/

/-- The libraries from number `n` on are the given ones; the lists hold all folders and pictures
in them. -/
inductive ShowsLibraries (c : Catalog) :
    Nat → List Snapshot.Library → List FolderId → List ItemId → Prop
  | nil {n : Nat} : ShowsLibraries c n [] [] []
  | cons {n : Nat} {r : Library} {l : Snapshot.Library} {rest : List Snapshot.Library}
      {folders folders' : List FolderId} {items items' : List ItemId} :
      c.library? ⟨n⟩ = some r → r.outline = l.outline →
        c.ShowsFolders ⟨n⟩ none r.folders l.folders folders items →
          ShowsLibraries c (n + 1) rest folders' items' →
            ShowsLibraries c n (l :: rest) (folders ++ folders') (items ++ items')

/-- The catalog has what a snapshot describes and nothing else: the tags, told by their paths; the
libraries in their order, with each folder once, in its place; and the pictures, told by where they
lie, what they are and the paths of their tags. -/
structure Depicts (c : Catalog) (s : Snapshot) : Prop where
  tags : (c.tags.keys.map fun k => c.tagPath? ⟨k⟩).Perm (s.tagPaths.map some)
  libraries : c.libraries.size = s.libraries.length
  folders : ∃ folders items, c.ShowsLibraries 0 s.libraries folders items ∧
    c.folders.keys.Perm (folders.map (·.index)) ∧ c.items.keys.Perm (items.map (·.index))
  items : (c.itemIds.map c.depict?).Perm (s.depictions.map fun p => some p.merged)

/-! ## Lemmas: one library -/

/-- No library has the machine name. -/
def MachineNameFree (c : Catalog) (name : String) : Prop :=
  ∀ ⦃id : LibraryId⦄ ⦃l : Library⦄, c.library? id = some l → l.machineName ≠ name

theorem libraryNamed?_eq_none_iff {c : Catalog} {name : String} :
    c.libraryNamed? name = none ↔ c.MachineNameFree name := by
  rw [libraryNamed?, Option.map_eq_none_iff, List.find?_eq_none]
  constructor
  · intro h id l hl hname
    exact h (id.index, l) (SortedMap.find?_eq_some_iff.1 hl) (by simpa using hname)
  · intro h e he
    have hl : c.library? ⟨e.1⟩ = some e.2 := SortedMap.find?_eq_some_iff.2 he
    simpa using h hl

theorem addSnapshotLibrary_of_not_free {c : Catalog} {l : Snapshot.Library}
    (h : ¬ c.MachineNameFree l.machineName) :
    addSnapshotLibrary c l = .error (.duplicateMachineName l.machineName) := by
  rw [← libraryNamed?_eq_none_iff, ← ne_eq, Option.ne_none_iff_isSome] at h
  rw [addSnapshotLibrary, if_pos h]
  rfl

/-- A library with a new machine name is added with its top folders, which are then filled. -/
theorem addSnapshotLibrary_of_free {c : Catalog} (h : c.Built) {l : Snapshot.Library}
    (hfree : c.MachineNameFree l.machineName) :
    ∃ d r ids, addSnapshotLibrary c l = fillTrees d ids l.folders ∧ c.Grown [] ids [] d ∧
      d.libraries.size = c.libraries.size + 1 ∧
      (∀ {id r}, c.library? id = some r → d.library? id = some r) ∧
      d.library? ⟨c.libraries.size⟩ = some r ∧ r.outline = l.outline ∧ r.folders = ids ∧
      d.Entered ⟨c.libraries.size⟩ none ids l.folders := by
  have hg := h.links.folders.gapless
  obtain ⟨e, he⟩ : ∃ e, c.Adds (.library l.displayName l.machineName l.absolutePath l.nsfw
      (l.owner.map ViewerId.mk)) e := ⟨_, .library ..⟩
  have hlibrary : e.library? ⟨c.libraries.size⟩ = some l.outline := by
    cases he
    rw [← hg.freshKey_eq_size]
    exact SortedMap.find?_insert_self ..
  have hkept {id : LibraryId} {r : Library} (hr : c.library? id = some r) :
      e.library? id = some r := by
    cases he
    exact hg.find?_insert_of_find? hr _
  have hsize : e.libraries.size = c.libraries.size + 1 := by
    cases he
    exact hg.size_insert_freshKey _
  have hgrown : c.Grown [] [] [] e := by
    have hbuilt := h.of_adds he
    cases he
    exact ⟨hbuilt, rfl, rfl, fun _ hf => hf, fun hi => hi, by simp, by simp⟩
  obtain ⟨d, ids, hd, hadded, hsize', hothers, hlibrary', hentered⟩ :=
    addTopFolders_ok hgrown.built hlibrary l.folders
  refine ⟨d, _, ids, ?_, hgrown.trans hadded fun _ => Or.inl, hsize'.trans hsize,
    fun {id r} hr => ?_, hlibrary', ?_, List.nil_append _, hentered⟩
  · have hnone : ¬ (c.libraryNamed? l.machineName).isSome = true := by
      rw [libraryNamed?_eq_none_iff.2 hfree]
      exact Bool.false_ne_true
    have hadd : (c.addLibrary l.displayName l.machineName l.absolutePath l.nsfw
        (l.owner.map ViewerId.mk)) = (e, ⟨c.libraries.size⟩) :=
      Prod.ext he.after_eq (congrArg LibraryId.mk hg.freshKey_eq_size)
    rw [addSnapshotLibrary, if_neg hnone, hadd]
    show (enterFolders _ e [] l.folders >>= fun entered => entered.1.fillFolders entered.2) = _
    rw [enterFolders_eq, hd]
    show d.fillFolders ((ids.zip l.folders).reverse ++ []) = _
    rw [List.append_nil, fillFolders_eq]
  · have hne : id ≠ ⟨c.libraries.size⟩ := by
      rintro rfl
      exact absurd (hg.lt_size_of_find? hr) (Nat.lt_irrefl _)
    rw [hothers id hne, hkept hr]
  · rfl

/-- What loading a library does, where it goes well. -/
theorem addSnapshotLibrary_ok {c d : Catalog} (h : c.Built) {l : Snapshot.Library}
    (hd : addSnapshotLibrary c l = .ok d) :
    ∃ r folders items, c.Grown [] folders items d ∧
      d.libraries.size = c.libraries.size + 1 ∧
      (∀ {id r}, c.library? id = some r → d.library? id = some r) ∧
      d.library? ⟨c.libraries.size⟩ = some r ∧ r.outline = l.outline ∧
      d.ShowsFolders ⟨c.libraries.size⟩ none r.folders l.folders folders items := by
  by_cases hfree : c.MachineNameFree l.machineName
  · obtain ⟨e, r, ids, heq, hadded, hsize, hkept, hr, houtline, hfolders, hentered⟩ :=
      addSnapshotLibrary_of_free h hfree
    rw [heq] at hd
    obtain ⟨below, items, all, hfilled, hlibraries, hall, hperm⟩ :=
      fillTrees_ok hadded.built hadded.nodup_folders hentered hd
    have hlibrary : d.library? = e.library? := by
      funext id
      rw [library?, hlibraries, library?]
    refine ⟨r, all, items, ?_, hlibraries ▸ hsize, fun hr => ?_, ?_, houtline, hfolders ▸ hall⟩
    · exact (hadded.trans hfilled fun _ => Or.inr).of_perm hperm.symm (.refl _)
    · rw [hlibrary]
      exact hkept hr
    · rw [hlibrary, hr]
  · rw [addSnapshotLibrary_of_not_free hfree] at hd
    cases hd

theorem exists_addSnapshotLibrary_iff {c : Catalog} (h : c.Built) (l : Snapshot.Library) :
    (∃ d, addSnapshotLibrary c l = .ok d) ↔
      c.MachineNameFree l.machineName ∧
        ∀ p ∈ Snapshot.Folder.picturesAll [] l.folders, c.Resolves p.2 := by
  by_cases hfree : c.MachineNameFree l.machineName
  · obtain ⟨e, r, ids, heq, hadded, _, _, _, _, _, hentered⟩ := addSnapshotLibrary_of_free h hfree
    rw [heq, exists_fillTrees_iff hadded.built hadded.nodup_folders hentered [],
      and_iff_right hfree]
    exact forall₂_congr fun p _ => hadded.resolves_iff
  · rw [addSnapshotLibrary_of_not_free hfree]
    simp [hfree]

/-! ## Lemmas: all libraries -/

theorem addSnapshotLibraries_ok {c d : Catalog} (h : c.Built) {libraries : List Snapshot.Library}
    (hd : libraries.foldlM addSnapshotLibrary c = .ok d) :
    ∃ folders items, c.Grown [] folders items d ∧
      d.libraries.size = c.libraries.size + libraries.length ∧
      (∀ {id r}, c.library? id = some r → d.library? id = some r) ∧
      d.ShowsLibraries c.libraries.size libraries folders items := by
  induction libraries generalizing c with
  | nil =>
    cases hd
    exact ⟨[], [], .refl h _, rfl, id, .nil⟩
  | cons l rest ih =>
    rw [List.foldlM_cons] at hd
    obtain ⟨e, he, hd⟩ := bind_eq_ok_iff.1 hd
    obtain ⟨r, folders, items, hone, hsize, hkept, hr, houtline, hshown⟩ :=
      addSnapshotLibrary_ok h he
    obtain ⟨folders', items', hrest, hsize', hkept', hlibraries⟩ := ih hone.built hd
    rw [hsize] at hsize' hlibraries
    refine ⟨folders ++ folders', items ++ items', hone.trans hrest fun _ => Or.inl, ?_,
      fun hr => hkept' (hkept hr), .cons (hkept' hr) houtline ?_ hlibraries⟩
    · rw [hsize', List.length_cons, Nat.add_assoc, Nat.add_comm 1]
    · exact hshown.of_grown hrest fun _ _ => List.not_mem_nil

/-- After a library has been added its machine name is taken, and no other. -/
theorem machineNameFree_iff {c d : Catalog} (h : c.Built) {l : Snapshot.Library}
    (hd : addSnapshotLibrary c l = .ok d) (name : String) :
    d.MachineNameFree name ↔ l.machineName ≠ name ∧ c.MachineNameFree name := by
  obtain ⟨r, _, _, hgrown, hsize, hkept, hr, houtline, _⟩ := addSnapshotLibrary_ok h hd
  have hname : r.machineName = l.machineName := congrArg Library.machineName houtline
  constructor
  · intro hfree
    exact ⟨hname ▸ hfree hr, fun id r hr => hfree (hkept hr)⟩
  · rintro ⟨hne, hfree⟩ id r' hr'
    have hlt : id.index < d.libraries.size :=
      hgrown.built.links.folders.gapless.lt_size_of_find? hr'
    rcases Nat.lt_or_eq_of_le (Nat.le_of_lt_succ (hsize ▸ hlt)) with hold | hnew
    · obtain ⟨r'', hr''⟩ := h.links.folders.gapless.exists_find?_iff.2 hold
      have hr'' : c.library? id = some r'' := hr''
      rw [hkept hr''] at hr'
      cases hr'
      exact hfree hr''
    · have hid : id = ⟨c.libraries.size⟩ := libraryIndex_injective hnew
      rw [hid, hr] at hr'
      cases hr'
      rwa [hname]

theorem exists_addSnapshotLibraries_iff {c : Catalog} (h : c.Built)
    (libraries : List Snapshot.Library) :
    (∃ d, libraries.foldlM addSnapshotLibrary c = .ok d) ↔
      (∀ l ∈ libraries, c.MachineNameFree l.machineName) ∧
        (libraries.map (·.machineName)).Nodup ∧
        ∀ l ∈ libraries, ∀ p ∈ Snapshot.Folder.picturesAll [] l.folders, c.Resolves p.2 := by
  induction libraries generalizing c with
  | nil => simp [pure, Except.pure]
  | cons l rest ih =>
    have hrest {e : Catalog} (he : addSnapshotLibrary c l = .ok e) :
        (∃ d, rest.foldlM addSnapshotLibrary e = .ok d) ↔
          ((∀ m ∈ rest, l.machineName ≠ m.machineName) ∧
            ∀ m ∈ rest, c.MachineNameFree m.machineName) ∧
          (rest.map (·.machineName)).Nodup ∧
          ∀ m ∈ rest, ∀ p ∈ Snapshot.Folder.picturesAll [] m.folders, c.Resolves p.2 := by
      obtain ⟨_, _, _, hgrown, _⟩ := addSnapshotLibrary_ok h he
      simp only [ih hgrown.built, machineNameFree_iff h he, hgrown.resolves_iff, forall_and]
    have hnew : l.machineName ∉ rest.map (·.machineName) ↔
        ∀ m ∈ rest, l.machineName ≠ m.machineName := by
      simp [eq_comm]
    rw [List.foldlM_cons, exists_bind_eq_ok_iff (exists_addSnapshotLibrary_iff h l) fun e he =>
      hrest he, List.map_cons, List.nodup_cons, hnew]
    simp only [List.forall_mem_cons, and_assoc, and_left_comm]

theorem ShowsLibraries.map_depict? {c : Catalog} (h : c.Built) {n : Nat}
    {libraries : List Snapshot.Library} {folders : List FolderId} {items : List ItemId}
    (hs : c.ShowsLibraries n libraries folders items) :
    items.map c.depict? =
      (Snapshot.depictionsFrom n libraries).map fun p => some p.merged := by
  induction hs with
  | nil => rfl
  | cons _ _ hshown _ ih =>
    rw [List.map_append, h.map_depict?_folders hshown rfl, ih, Snapshot.depictionsFrom,
      List.map_append, List.map_map]
    rfl

theorem forall_mem_depictionsFrom {n : Nat} {libraries : List Snapshot.Library}
    (q : Snapshot.Item → Prop) :
    (∀ p ∈ Snapshot.depictionsFrom n libraries, q p.item) ↔
      ∀ l ∈ libraries, ∀ p ∈ Snapshot.Folder.picturesAll [] l.folders, q p.2 := by
  induction libraries generalizing n with
  | nil => simp [Snapshot.depictionsFrom]
  | cons l rest ih =>
    rw [Snapshot.depictionsFrom, List.forall_mem_append, List.forall_mem_map, ih,
      List.forall_mem_cons]

/-! ## Lemmas: whole snapshots -/

theorem ofSnapshot_eq (s : Snapshot) :
    ofSnapshot s = addTagTrees none empty s.tags >>= fun c =>
      s.libraries.foldlM addSnapshotLibrary c := by
  rw [ofSnapshot, addTags_eq]

/-- The tags of a snapshot can be loaded where their names allow it. -/
theorem exists_addTagTrees_empty_iff (s : Snapshot) :
    (∃ c, addTagTrees none empty s.tags = .ok c) ↔ Snapshot.Tag.ProperAll s.tags := by
  have hroot : empty.namesAbove? none = some [] := rfl
  rw [Built.empty.exists_addTagTrees_iff hroot]
  exact and_iff_left fun _ _ => List.not_mem_nil

section Tags

variable {s : Snapshot} {c : Catalog} (hc : addTagTrees none empty s.tags = .ok c)

include hc

theorem tagsAdded_of_addTagTrees :
    empty.TagsAdded (Snapshot.Tag.linesAll [] s.tags) c := by
  have hroot : empty.namesAbove? none = some [] := rfl
  exact Built.empty.addTagTrees_ok hroot hc

/-- Once the tags are loaded their paths are those of the snapshot. -/
theorem tagPaths_of_addTagTrees :
    (c.tags.keys.map fun k => c.tagPath? ⟨k⟩).Perm (s.tagPaths.map some) := by
  have hlines := (tagsAdded_of_addTagTrees hc).lines.map
    (Option.map fun names => "/".intercalate names)
  have hpaths : (c.tags.keys.map fun k => c.tagPath? ⟨k⟩) =
      c.tagLines.map (Option.map fun names => "/".intercalate names) := by
    simp only [tagLines, List.map_map, tagPath?_eq_map]
    rfl
  rw [hpaths, Snapshot.tagPaths, List.map_map]
  simpa [tagLines, empty, SortedMap.keys, SortedMap.empty, Function.comp_def] using hlines

/-- Once the tags are loaded, the pictures whose paths lead to tags are those that only name tags
of the snapshot. -/
theorem resolves_iff_of_addTagTrees {item : Snapshot.Item} :
    c.Resolves item ↔ ∀ path ∈ item.tags, path ∈ s.tagPaths := by
  have hbuilt := (tagsAdded_of_addTagTrees hc).built
  refine forall₂_congr fun path _ => ?_
  rw [← List.mem_map_of_injective (Option.some_injective String),
    ← (tagPaths_of_addTagTrees hc).mem_iff, List.mem_map]
  constructor
  · rintro ⟨tag, htag⟩
    rw [hbuilt.tagAt?_eq_some_iff] at htag
    exact ⟨tag.index, SortedMap.mem_keys_iff.2 (hbuilt.exists_tag?_of_tagPath? htag), htag⟩
  · rintro ⟨k, _, hk⟩
    exact ⟨⟨k⟩, hbuilt.tagAt?_eq_some_iff.2 hk⟩

end Tags

theorem exists_ofSnapshot_iff (s : Snapshot) : (∃ c, ofSnapshot s = .ok c) ↔ s.Loadable := by
  have libraries {c : Catalog} (hc : addTagTrees none empty s.tags = .ok c) :
      (∃ d, s.libraries.foldlM addSnapshotLibrary c = .ok d) ↔
        (s.libraries.map (·.machineName)).Nodup ∧
          ∀ p ∈ s.depictions, ∀ path ∈ p.item.tags, path ∈ s.tagPaths := by
    have hadded := tagsAdded_of_addTagTrees hc
    have hfree : ∀ l ∈ s.libraries, c.MachineNameFree l.machineName := by
      intro _ _ id l hl
      rw [library?, hadded.libraries] at hl
      cases hl
    rw [exists_addSnapshotLibraries_iff hadded.built, and_iff_right hfree]
    simp only [resolves_iff_of_addTagTrees hc]
    refine and_congr_right fun _ => ?_
    exact (forall_mem_depictionsFrom fun item => ∀ path ∈ item.tags, path ∈ s.tagPaths).symm
  rw [ofSnapshot_eq,
    exists_bind_eq_ok_iff (exists_addTagTrees_empty_iff s) fun c hc => libraries hc]
  constructor
  · rintro ⟨htags, hnames, htagged⟩
    exact ⟨htags, hnames, htagged⟩
  · rintro ⟨htags, hnames, htagged⟩
    exact ⟨htags, hnames, htagged⟩

theorem depicts_of_ofSnapshot {s : Snapshot} {d : Catalog} (h : ofSnapshot s = .ok d) :
    d.Depicts s := by
  rw [ofSnapshot_eq] at h
  obtain ⟨c, hc, hd⟩ := bind_eq_ok_iff.1 h
  have hadded := tagsAdded_of_addTagTrees hc
  obtain ⟨folders, items, hgrown, hsize, _, hlibraries⟩ := addSnapshotLibraries_ok hadded.built hd
  have hnone : c.libraries.size = 0 := by
    rw [hadded.libraries]
    rfl
  rw [hnone, Nat.zero_add] at hsize
  rw [hnone] at hlibraries
  have hitems : d.items.keys.Perm (items.map (·.index)) := by
    simpa [hadded.items, empty, SortedMap.keys, SortedMap.empty] using hgrown.itemKeys
  refine ⟨?_, hsize, ⟨folders, items, hlibraries, ?_, hitems⟩, ?_⟩
  · rw [hgrown.tags, hgrown.tagPath?_eq]
    exact tagPaths_of_addTagTrees hc
  · simpa [hadded.folders, empty, SortedMap.keys, SortedMap.empty] using hgrown.folderKeys
  · rw [Snapshot.depictions, ← hlibraries.map_depict? hgrown.built, itemIds]
    have hids := hitems.map ItemId.mk
    rw [List.map_map] at hids
    refine (hids.map d.depict?).trans (.of_eq ?_)
    simp [Function.comp_def]

/-! ## Top theorem -/

/-- **Snapshots are loaded faithfully.** A snapshot can be loaded just where its names and paths
allow it, and the catalog then shows all of it and nothing else. -/
theorem ofSnapshot_faithful (s : Snapshot) :
    ((∃ c, ofSnapshot s = .ok c) ↔ s.Loadable) ∧ ∀ c, ofSnapshot s = .ok c → c.Depicts s :=
  ⟨exists_ofSnapshot_iff s, fun _ => depicts_of_ofSnapshot⟩

/-- Tags of one name in two places, an empty folder inside another, and a path named twice. -/
def nested : Snapshot where
  tags := [.mk "IFDY" [.mk "Test" []], .mk "Test" []]
  libraries :=
    [{ displayName := "Shared", machineName := "shared",
       folders := [.mk "Foo" [.mk "Empty" [] []]
         [{ name := "a.png", width := 640, height := 480,
            tags := ["IFDY/Test", "Test", "IFDY/Test"] }],
         .mk "Foo" [] []] },
     { displayName := "Own", machineName := "own", owner := some 2 }]

theorem ofSnapshot_faithful_nested : ∃ c, ofSnapshot nested = .ok c ∧ c.Depicts nested := by
  have hload : nested.Loadable :=
    ⟨by simp [nested, Snapshot.Tag.ProperAll, Snapshot.Tag.Proper, Snapshot.Tag.name],
      by decide, by decide⟩
  obtain ⟨c, hc⟩ := (ofSnapshot_faithful nested).1.2 hload
  exact ⟨c, hc, (ofSnapshot_faithful nested).2 c hc⟩

end PictureSearch.Catalog

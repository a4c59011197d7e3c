import PictureSearch.Proofs.Search.Order
import PictureSearch.Proofs.Snapshot.Loading
import PictureSearch.Proofs.Snapshot.Visiting

/-!
# The order of loading

A snapshot is loaded as it is visited, error by error and number by number.  So no library is looked
at before all tags are there, of the calls for libraries, folders and pictures none can fail, and
the pictures have the numbers of their visit, by which a result arranges those that its key does not
tell apart:

    ofSnapshot s = visit s                                                   (ofSnapshot_eq_visit)
    ofSnapshot s = .ok c → c.itemIds.map c.depict? = s.visited.map fun p => some p.merged
                                                                        (itemIds_of_ofSnapshot)
-/

namespace PictureSearch

/-! ## Statements -/

/-- Of two numbers the first comes first in a direction. -/
def Direction.Runs (direction : Direction) (a b : ItemId) : Prop :=
  match direction with
  | .ascending => a.index < b.index
  | .descending => b.index < a.index

namespace Catalog

/-- What can be wrong with libraries: a machine name that is taken, or a path without a tag. -/
inductive LibraryError : LoadError → Prop
  | duplicateMachineName (name : String) : LibraryError (.duplicateMachineName name)
  | unknownTagPath (path item : String) : LibraryError (.unknownTagPath path item)

/-! ## Lemmas: folders -/

section Folders

variable {c : Catalog} (h : c.Built) {library : LibraryId}

include h

theorem addSnapshotItems_eq {folder : FolderId} {names : List String}
    (hin : c.Place library (some folder) names) (items : List Snapshot.Item) :
    items.foldlM (addSnapshotItem folder) c = visitItems folder c items := by
  induction items generalizing c with
  | nil => rfl
  | cons item rest ih =>
    rw [List.foldlM_cons, visitItems]
    cases hknown : c.unknownPath? item with
    | some path =>
      rw [addSnapshotItem, resolveTags_eq, hknown]
      rfl
    | none =>
      obtain ⟨_, hext⟩ := (gathers_item h hin hknown).exists_extends
      rw [addSnapshotItem_of_known h hin hknown]
      exact ih hext.built (hin.of_extends h hext)

theorem addFolders_eq {parent : Option FolderId} {above : List String}
    (hp : c.Place library parent above)
    {add : Catalog → String → Except BuildError (Catalog × FolderId)}
    (hadd : ∀ {c d : Catalog} {name : String}, c.Adds (placeCall library parent name) d →
      add c name = .ok (d, ⟨c.folders.freshKey⟩)) (ts : List Snapshot.Folder) :
    addFolders add c ts = .ok (placeFolders (placeCall library parent) c ts) := by
  induction ts generalizing c with
  | nil => rfl
  | cons t rest ih =>
    have hext := extends_placeCall h library parent t.name
    obtain ⟨hone, _⟩ := adds_placeCall h hp t.name
    rw [addFolders, hadd hone]
    show (addFolders add _ rest).map _ = _
    rw [ih hext.built (hp.of_extends h hext), h.links.folders.ranked.gapless.freshKey_eq_size]
    rfl

end Folders

mutual

theorem fillTree_eq {c : Catalog} (h : c.Built) {library : LibraryId} {id : FolderId}
    {names : List String} (hin : c.Place library (some id) names) (t : Snapshot.Folder) :
    fillTree c id t = visitFolder c id t := by
  match t with
  | .mk name ts is =>
    rw [fillTree, visitFolder, addSnapshotItems_eq h hin]
    cases hd : visitItems id c is with
    | error e => rfl
    | ok d =>
      obtain ⟨_, hext⟩ := (gathers_visitItems h hin hd).exists_extends
      have hin := hin.of_extends h hext
      obtain ⟨hadded, hplaced⟩ := placed_placeFolders hext.built hin ts
      have heq := addFolders_eq hext.built hin
        (fun hone => addSubfolder_eq_ok_iff.2 ⟨hone, rfl⟩) ts
      show (addFolders (fun c name => c.addSubfolder id name) d ts >>= fun added =>
        fillTrees added.1 added.2 ts) = _
      rw [heq]
      exact fillTrees_eq hadded.built (hin.of_extends hext.built hadded) hplaced

theorem fillTrees_eq {c : Catalog} (h : c.Built) {library : LibraryId}
    {parent : Option FolderId} {above : List String} (hp : c.Place library parent above)
    {ids : List FolderId} {ts : List Snapshot.Folder} (hplaced : c.Placed library parent ids ts) :
    fillTrees c ids ts = visitFolders c ids ts := by
  match ts with
  | [] =>
    cases hplaced
    rw [fillTrees, visitFolders]
    · simp
    · simp
  | t :: ts =>
    cases hplaced with
    | @cons id _ ids _ ht hrest =>
      rw [fillTrees, visitFolders, fillTrees_eq h hp hrest]
      cases hd : visitFolders c ids ts with
      | error e => rfl
      | ok d =>
        obtain ⟨_, hext⟩ := (gathers_visitFolders h hp hrest hd).exists_extends
        exact fillTree_eq hext.built ((place_of_placed h hp ht).of_extends h hext) t

end

/-! ## Lemmas: libraries -/

section Libraries

variable {c d : Catalog} (h : c.Built)

include h

/-- A library gets the next number, whatever is said of it, and is a place for folders. -/
theorem addLibrary_eq (l : Snapshot.Library) :
    c.addLibrary l.displayName l.machineName l.absolutePath l.nsfw (l.owner.map ViewerId.mk) =
        (c.after (libraryCall l), ⟨c.libraries.size⟩) ∧
      (c.after (libraryCall l)).Place ⟨c.libraries.size⟩ none [] := by
  rw [← h.links.folders.gapless.freshKey_eq_size]
  exact ⟨rfl, .top (SortedMap.find?_insert_self ..)⟩

theorem addSnapshotLibrary_eq (l : Snapshot.Library) :
    addSnapshotLibrary c l = visitLibrary c l := by
  by_cases hnamed : (c.libraryNamed? l.machineName).isSome
  · rw [addSnapshotLibrary, visitLibrary, if_pos hnamed, if_pos hnamed]
    rfl
  · obtain ⟨hadd, hp⟩ := addLibrary_eq h l
    have hbuilt := h.after (libraryCall l)
    obtain ⟨hadded, hplaced⟩ := placed_placeFolders hbuilt hp l.folders
    have heq := addFolders_eq hbuilt hp (fun hone => addFolder_eq_ok_iff.2 ⟨hone, rfl⟩) l.folders
    rw [addSnapshotLibrary, visitLibrary, if_neg hnamed, if_neg hnamed, hadd]
    show (enterFolders (fun c name => c.addFolder ⟨_⟩ name) _ [] l.folders >>= fun entered =>
      entered.1.fillFolders entered.2) = _
    rw [enterFolders_eq, heq]
    show Catalog.fillFolders _ (_ ++ []) = _
    rw [List.append_nil, fillFolders_eq]
    exact fillTrees_eq hadded.built (hp.of_extends hbuilt hadded) hplaced

theorem gathers_visitLibrary {l : Snapshot.Library} (hd : visitLibrary c l = .ok d) :
    c.Gathers ((Snapshot.Folder.visitedAll [] l.folders).map fun p =>
        ⟨⟨c.libraries.size⟩, p.1, p.2⟩) d ∧ d.libraries.size = c.libraries.size + 1 := by
  obtain ⟨_, _, _, _, hsize, _⟩ := addSnapshotLibrary_ok h ((addSnapshotLibrary_eq h l).trans hd)
  obtain ⟨_, hp⟩ := addLibrary_eq h l
  have hext := extends_after h (libraryCall l)
  obtain ⟨hadded, hplaced⟩ := placed_placeFolders hext.built hp l.folders
  unfold visitLibrary at hd
  split at hd
  · cases hd
  · have hfolders := gathers_visitFolders hadded.built (hp.of_extends hext.built hadded) hplaced hd
    exact ⟨(Gathers.of_extends (hext.trans hadded)).trans hfolders, hsize⟩

theorem addSnapshotLibraries_eq (libraries : List Snapshot.Library) :
    libraries.foldlM addSnapshotLibrary c = visitLibraries c libraries := by
  induction libraries generalizing c with
  | nil => rfl
  | cons l rest ih =>
    rw [List.foldlM_cons, visitLibraries, addSnapshotLibrary_eq h]
    cases hd : visitLibrary c l with
    | error e => rfl
    | ok d =>
      obtain ⟨_, hext⟩ := (gathers_visitLibrary h hd).1.exists_extends
      exact ih hext.built

theorem gathers_visitLibraries {libraries : List Snapshot.Library}
    (hd : visitLibraries c libraries = .ok d) :
    c.Gathers (Snapshot.visitedFrom c.libraries.size libraries) d := by
  induction libraries generalizing c with
  | nil =>
    cases hd
    exact .refl h
  | cons l rest ih =>
    rw [visitLibraries] at hd
    obtain ⟨e, he, hd⟩ := bind_eq_ok_iff.1 hd
    obtain ⟨hone, hsize⟩ := gathers_visitLibrary h he
    obtain ⟨_, hext⟩ := hone.exists_extends
    have hrest := ih hext.built hd
    rw [hsize] at hrest
    exact hone.trans hrest

end Libraries

/-! ## Lemmas: errors -/

mutual

theorem error_of_addTagTree {parent : Option TagId} {c : Catalog} {t : Snapshot.Tag}
    {e : LoadError} (he : addTagTree parent c t = .error e) : ∃ cause, e = .tag cause := by
  match t with
  | .mk name children =>
    rw [addTagTree] at he
    split at he
    · cases he
      exact ⟨_, rfl⟩
    · exact error_of_addTagTrees he

theorem error_of_addTagTrees {parent : Option TagId} {c : Catalog} {ts : List Snapshot.Tag}
    {e : LoadError} (he : addTagTrees parent c ts = .error e) : ∃ cause, e = .tag cause := by
  match ts with
  | [] => cases he
  | t :: rest =>
    rw [addTagTrees] at he
    rcases bind_eq_error_iff.1 he with he | ⟨d, _, he⟩
    · exact error_of_addTagTrees he
    · exact error_of_addTagTree he

end

theorem libraryError_of_visitItems {folder : FolderId} {c : Catalog} {items : List Snapshot.Item}
    {e : LoadError} (he : visitItems folder c items = .error e) : LibraryError e := by
  induction items generalizing c with
  | nil => cases he
  | cons item rest ih =>
    rw [visitItems] at he
    split at he
    · cases he
      exact .unknownTagPath ..
    · exact ih he

mutual

theorem libraryError_of_visitFolder {c : Catalog} {id : FolderId} {t : Snapshot.Folder}
    {e : LoadError} (he : visitFolder c id t = .error e) : LibraryError e := by
  match t with
  | .mk name ts is =>
    rw [visitFolder] at he
    rcases bind_eq_error_iff.1 he with he | ⟨d, _, he⟩
    · exact libraryError_of_visitItems he
    · exact libraryError_of_visitFolders he

theorem libraryError_of_visitFolders {c : Catalog} {ids : List FolderId}
    {ts : List Snapshot.Folder} {e : LoadError} (he : visitFolders c ids ts = .error e) :
    LibraryError e := by
  match ids, ts with
  | [], _ => simp [visitFolders] at he
  | _ :: _, [] => simp [visitFolders] at he
  | id :: ids, t :: rest =>
    rw [visitFolders] at he
    rcases bind_eq_error_iff.1 he with he | ⟨d, _, he⟩
    · exact libraryError_of_visitFolders he
    · exact libraryError_of_visitFolder he

end

theorem libraryError_of_visitLibraries {c : Catalog} {libraries : List Snapshot.Library}
    {e : LoadError} (he : visitLibraries c libraries = .error e) : LibraryError e := by
  induction libraries generalizing c with
  | nil => cases he
  | cons l rest ih =>
    rw [visitLibraries] at he
    rcases bind_eq_error_iff.1 he with he | ⟨d, _, he⟩
    · unfold visitLibrary at he
      split at he
      · cases he
        exact .duplicateMachineName _
      · exact libraryError_of_visitFolders he
    · exact ih he

/-! ## Lemmas: whole snapshots -/

theorem ofSnapshot_eq_visit (s : Snapshot) : ofSnapshot s = visit s := by
  rw [ofSnapshot_eq, visit]
  cases hc : addTagTrees none empty s.tags with
  | error e => rfl
  | ok c => exact addSnapshotLibraries_eq (tagsAdded_of_addTagTrees hc).built s.libraries

/-- The pictures are numbered in the order of the visit. -/
theorem itemIds_of_ofSnapshot {s : Snapshot} {d : Catalog} (h : ofSnapshot s = .ok d) :
    d.itemIds = (List.range s.visited.length).map ItemId.mk ∧
      d.itemIds.map d.depict? = s.visited.map fun p => some p.merged := by
  rw [ofSnapshot_eq_visit, visit] at h
  obtain ⟨c, hc, hd⟩ := bind_eq_ok_iff.1 h
  have hadded := tagsAdded_of_addTagTrees hc
  have hitems : c.itemIds = [] := by
    rw [itemIds, hadded.items]
    rfl
  have hlibraries : c.libraries.size = 0 := by
    rw [hadded.libraries]
    rfl
  have hgathers := gathers_visitLibraries hadded.built hd
  rw [hlibraries] at hgathers
  obtain ⟨new, hext, hnew⟩ := hgathers
  have hids := hext.itemIds
  rw [hitems, List.nil_append] at hids
  have hgapless : d.items.keys = List.range d.items.size := hext.built.links.items.gapless
  have hlength : d.items.size = s.visited.length := by
    have hlen := congrArg List.length hnew
    rw [List.length_map, List.length_map, ← hids, itemIds, List.length_map,
      SortedMap.length_keys] at hlen
    exact hlen
  constructor
  · rw [itemIds, hgapless, hlength]
  · rw [hids]
    exact hnew

/-! ## Lemmas: ties -/

theorem ids_sublist_unpaged (c : Catalog) (q : ItemQuery) :
    (c.ids q).Sublist (c.ids q.unpaged) := by
  rw [ids_unpaged, ids]
  cases q.limit with
  | none => exact List.drop_sublist _ _
  | some limit => exact (List.take_sublist _ _).trans (List.drop_sublist _ _)

/-- Pictures that the key does not tell apart go by their numbers. -/
theorem ids_pairwise_of_alike (c : Catalog) (q : ItemQuery) :
    (c.ids q).Pairwise fun a b => ∀ x y, c.item? a = some x → c.item? b = some y →
      q.key.Alike x y → q.direction.Runs a b := by
  have hgoes := c.ids_pairwise_goes q.predicate q.key q.direction
  refine (hgoes.sublist (c.ids_sublist_unpaged q)).imp ?_
  intro a b hab x y hx hy halike
  have runs {a b : ItemId} {x y : Item} (hx : c.item? a = some x) (hy : c.item? b = some y)
      (halike : q.key.Alike x y) (hab : c.Precedes q.key a b) : a.index < b.index := by
    obtain ⟨x', y', hx', hy', hbefore | ⟨_, hlt⟩⟩ := hab
    · rw [hx] at hx'
      rw [hy] at hy'
      cases hx'
      cases hy'
      rw [OrderKey.before_iff, OrderKey.alike_iff.1 halike] at hbefore
      cases hbefore
    · exact hlt
  cases hdirection : q.direction with
  | ascending =>
    rw [hdirection] at hab
    exact runs hx hy halike hab
  | descending =>
    rw [hdirection] at hab
    have hback : q.key.Alike y x :=
      OrderKey.alike_iff.2 (Std.OrientedCmp.eq_symm (OrderKey.alike_iff.1 halike))
    exact runs hy hx hback hab

/-! ## Top theorem -/

/-- **A snapshot is loaded as it is visited.** The outcome is that of going down its trees.  An
error of the tags is reported whatever the libraries are like, and only where there is none can an
error of a library be.  The pictures are numbered in the order of the visit, and in every result
those that the key does not tell apart stand in this order, or in the opposite one if it is
descending. -/
theorem ofSnapshot_visits (s : Snapshot) :
    ofSnapshot s = visit s ∧
    (∀ e, addTagTrees none empty s.tags = .error e →
      (∃ cause, e = .tag cause) ∧ ofSnapshot s = .error e) ∧
    (∀ c e, addTagTrees none empty s.tags = .ok c → ofSnapshot s = .error e → LibraryError e) ∧
    ∀ c, ofSnapshot s = .ok c →
      c.itemIds = (List.range s.visited.length).map ItemId.mk ∧
      (c.itemIds.map c.depict? = s.visited.map fun p => some p.merged) ∧
      ∀ q, (c.ids q).Pairwise fun a b => ∀ x y, c.item? a = some x → c.item? b = some y →
        q.key.Alike x y → q.direction.Runs a b := by
  refine ⟨ofSnapshot_eq_visit s, fun e he => ⟨error_of_addTagTrees he, ?_⟩, fun c e hc he => ?_,
    fun c hc => ?_⟩
  · rw [ofSnapshot_eq, he]
    rfl
  · rw [ofSnapshot_eq_visit, visit, hc] at he
    exact libraryError_of_visitLibraries he
  · obtain ⟨hids, hpictures⟩ := itemIds_of_ofSnapshot hc
    exact ⟨hids, hpictures, c.ids_pairwise_of_alike⟩

/-- A folder with a picture and with a folder in it, and another behind it. -/
def shelves : Snapshot where
  libraries :=
    [{ displayName := "Shared", machineName := "shared",
       folders :=
        [.mk "First" [.mk "Inner" [] [{ name := "c.png", width := 90, height := 90 }]]
          [{ name := "a.png", width := 90, height := 90 }],
         .mk "Last" [] [{ name := "b.png", width := 90, height := 90 }]] }]

/-- The same library twice, behind some tags. -/
def shelvesTwice (tags : List Snapshot.Tag) : Snapshot where
  tags := tags
  libraries := shelves.libraries ++ shelves.libraries

/-- The last folder is visited first, and a folder in another after the pictures there; a tag
without a name is found before a library that stands twice. -/
theorem ofSnapshot_visits_shelves :
    shelves.visited.map (fun p => (p.folders, p.item.name)) =
      [(["Last"], "b.png"), (["First"], "a.png"), (["First", "Inner"], "c.png")] ∧
    (∃ c, ofSnapshot shelves = .ok c ∧ c.itemIds = [⟨0⟩, ⟨1⟩, ⟨2⟩] ∧
      c.itemIds.map c.depict? = shelves.visited.map (fun p => some p.merged)) ∧
    ofSnapshot (shelvesTwice [.mk "" []]) = .error (.tag (.invalidTagName "")) ∧
    ∃ e, ofSnapshot (shelvesTwice []) = .error e ∧ LibraryError e := by
  have htag : addTagTrees none empty (shelvesTwice [.mk "" []]).tags =
      .error (.tag (.invalidTagName "")) := rfl
  obtain ⟨c, hc⟩ : ∃ c, visit shelves = .ok c := ⟨_, rfl⟩
  obtain ⟨e, he⟩ : ∃ e, visit (shelvesTwice []) = .error e := ⟨_, rfl⟩
  obtain ⟨hvisit, _, _, hok⟩ := ofSnapshot_visits shelves
  obtain ⟨_, htags, _, _⟩ := ofSnapshot_visits (shelvesTwice [.mk "" []])
  obtain ⟨hvisit', _, hlibraries, _⟩ := ofSnapshot_visits (shelvesTwice [])
  rw [← hvisit] at hc
  rw [← hvisit'] at he
  obtain ⟨hids, hpictures, _⟩ := hok c hc
  exact ⟨rfl, ⟨c, hc, hids, hpictures⟩, (htags _ htag).2, e, he, hlibraries _ e rfl he⟩

end Catalog

end PictureSearch

import PictureSearch.Catalog.Building
import PictureSearch.Proofs.Outcome

/-!
# Catalogs that were built

A catalog is built by calls that add one record each, in any order and with any arguments.  A call
that fails leaves it as it was, and `Adds` says what one that succeeds makes of it:

    c.after call = c ∨ c.Adds call (c.after call)                                  (after_cases)

So what every call keeps holds of every catalog that was built.
-/

namespace PictureSearch

/-- A call that adds a record. -/
inductive BuildCall
  | library (displayName machineName absolutePath : String) (nsfw : Bool) (owner : Option ViewerId)
  | folder (library : LibraryId) (name : String)
  | subfolder (parent : FolderId) (name : String)
  | tag (name : String) (parent : Option TagId)
  | item (folder : FolderId) (item : NewItem)

/-- A folder without the lists of what lies in it. -/
def Folder.outline (f : Folder) : Folder := { f with children := [], items := [] }

/-- A library without the list of its folders. -/
def Library.outline (l : Library) : Library := { l with folders := [] }

theorem Folder.outline_eq_iff {f g : Folder} :
    f.outline = g.outline ↔ f.name = g.name ∧ f.library = g.library ∧ f.parent = g.parent := by
  cases f
  cases g
  simp [outline]

theorem Folder.map_name_eq {fs gs : List Folder} (h : gs.map outline = fs.map outline) :
    gs.map (·.name) = fs.map (·.name) := by
  have hnames := congrArg (List.map Folder.name) h
  rwa [List.map_map, List.map_map] at hnames

theorem Library.outline_eq_iff {l m : Library} :
    l.outline = m.outline ↔
      l.displayName = m.displayName ∧ l.machineName = m.machineName ∧
        l.absolutePath = m.absolutePath ∧ l.nsfw = m.nsfw ∧ l.owner = m.owner := by
  cases l
  cases m
  simp [outline]

namespace Catalog

/-- The catalog after a call whose record takes the number `n`, as it was where the call fails. -/
def afterAt (c : Catalog) (n : Nat) : BuildCall → Catalog
  | .library displayName machineName absolutePath nsfw owner =>
    (c.addLibrary displayName machineName absolutePath nsfw owner ⟨n⟩).1
  | .folder library name => ((c.addFolder library name ⟨n⟩).map (·.1)).toOption.getD c
  | .subfolder parent name => ((c.addSubfolder parent name ⟨n⟩).map (·.1)).toOption.getD c
  | .tag name parent => ((c.addTag name parent ⟨n⟩).map (·.1)).toOption.getD c
  | .item folder item => ((c.addItem folder item ⟨n⟩).map (·.1)).toOption.getD c

/-- The least number that is free for the record of a call. -/
def freeNumber (c : Catalog) : BuildCall → Nat
  | .library .. => c.libraries.freshKey
  | .folder .. | .subfolder .. => c.folders.freshKey
  | .tag .. => c.tags.freshKey
  | .item .. => c.items.freshKey

/-- The catalog after a call, as it was where the call fails. -/
def after (c : Catalog) (call : BuildCall) : Catalog := c.afterAt (c.freeNumber call) call

/-- The number of the record that a call adds, or why it adds none. -/
def added (c : Catalog) : BuildCall → Except BuildError Nat
  | .library displayName machineName absolutePath nsfw owner =>
    .ok (c.addLibrary displayName machineName absolutePath nsfw owner).2.index
  | .folder library name => (c.addFolder library name).map (·.2.index)
  | .subfolder parent name => (c.addSubfolder parent name).map (·.2.index)
  | .tag name parent => (c.addTag name parent).map (·.2.index)
  | .item folder item => (c.addItem folder item).map (·.2.index)

/-- The catalog is what calls make of the empty one. -/
inductive Built : Catalog → Prop
  | empty : Built .empty
  | after {c : Catalog} (call : BuildCall) : Built c → Built (c.after call)

/-- The catalog that some calls make of the empty one, one after the other. -/
def build (calls : List BuildCall) : Catalog := calls.foldl after .empty

/-- A library for everyone with one tagged picture, and a flagged one of viewer 2. -/
def twoLibraries (own : NewItem) : Catalog := build
  [.library "Shared" "shared" "/srv/shared" false none,
   .library "Own" "own" "/srv/own" true (some ⟨2⟩),
   .folder ⟨0⟩ "Foo Files 1", .folder ⟨1⟩ "Foo Files 2", .tag "IFDY" none,
   .item ⟨0⟩ { name := "a.png", width := 640, height := 480, tags := [⟨0⟩] }, .item ⟨1⟩ own]

/-- Viewer 2 keeps a small picture. -/
def withSmall : Catalog := twoLibraries { name := "b.png", width := 90, height := 90 }

/-- Viewer 2 keeps a tagged picture of a high rating. -/
def withRated : Catalog :=
  twoLibraries { name := "c.gif", width := 700, height := 500, rating := 9, tags := [⟨0⟩] }

/-- What a call that succeeds makes of a catalog. -/
inductive Adds (c : Catalog) : BuildCall → Catalog → Prop
  | library (displayName machineName absolutePath : String) (nsfw : Bool)
      (owner : Option ViewerId) :
      Adds c (.library displayName machineName absolutePath nsfw owner)
        { c with
          libraries := c.libraries.insert c.libraries.freshKey
            ⟨displayName, machineName, absolutePath, nsfw, owner, []⟩ }
  | folder {library : LibraryId} {l : Library} (name : String) :
      c.library? library = some l →
        Adds c (.folder library name)
          { c with
            folders := c.folders.insert c.folders.freshKey ⟨name, library, none, [], []⟩
            libraries := c.libraries.update library.index fun l =>
              { l with folders := l.folders ++ [⟨c.folders.freshKey⟩] } }
  | subfolder {parent : FolderId} {p : Folder} (name : String) :
      c.folder? parent = some p →
        Adds c (.subfolder parent name)
          { c with
            folders := (c.folders.insert c.folders.freshKey
              ⟨name, p.library, some parent, [], []⟩).update parent.index fun f =>
                { f with children := f.children ++ [⟨c.folders.freshKey⟩] } }
  | rootTag {name : String} :
      c.checkTag name none = .ok () →
        Adds c (.tag name none)
          { c with
            tags := c.tags.insert c.tags.freshKey ⟨name, none, []⟩
            tagIndex := c.tagIndex.add name ⟨c.tags.freshKey⟩ }
  | childTag {name : String} {parent : TagId} :
      c.checkTag name (some parent) = .ok () →
        Adds c (.tag name (some parent))
          { c with
            tags := (c.tags.insert c.tags.freshKey ⟨name, some parent, []⟩).update parent.index
              fun t => { t with children := t.children ++ [⟨c.tags.freshKey⟩] }
            tagIndex := c.tagIndex.add name ⟨c.tags.freshKey⟩ }
  | item {folder : FolderId} {f : Folder} {item : NewItem} :
      c.folder? folder = some f → (∀ id ∈ item.tags, ∃ t, c.tag? id = some t) →
        Adds c (.item folder item)
          { c with
            items := c.items.insert c.items.freshKey
              { name := item.name, folder, width := item.width, height := item.height,
                rating := item.rating, nsfw := item.nsfw, comment := item.comment,
                size := item.size, tags := keepFirst item.tags }
            folders := c.folders.update folder.index fun f =>
              { f with items := f.items ++ [⟨c.items.freshKey⟩] } }

/-! ## Calls -/

theorem addFolder_eq_ok_iff {c d : Catalog} {library : LibraryId} {name : String} {id : FolderId} :
    c.addFolder library name = .ok (d, id) ↔
      c.Adds (.folder library name) d ∧ id = ⟨c.folders.freshKey⟩ := by
  unfold addFolder
  constructor
  · intro h
    cases hl : c.library? library with
    | none => simp [hl] at h
    | some l =>
      simp only [hl] at h
      cases h
      exact ⟨.folder name hl, rfl⟩
  · rintro ⟨ha, rfl⟩
    cases ha with
    | folder _ hl => simp only [hl]

theorem addSubfolder_eq_ok_iff {c d : Catalog} {parent : FolderId} {name : String} {id : FolderId} :
    c.addSubfolder parent name = .ok (d, id) ↔
      c.Adds (.subfolder parent name) d ∧ id = ⟨c.folders.freshKey⟩ := by
  unfold addSubfolder
  constructor
  · intro h
    cases hp : c.folder? parent with
    | none => simp [hp] at h
    | some p =>
      simp only [hp] at h
      cases h
      exact ⟨.subfolder name hp, rfl⟩
  · rintro ⟨ha, rfl⟩
    cases ha with
    | subfolder _ hp => simp only [hp]

theorem addTag_eq_ok_iff {c d : Catalog} {name : String} {parent : Option TagId} {id : TagId} :
    c.addTag name parent = .ok (d, id) ↔
      c.Adds (.tag name parent) d ∧ id = ⟨c.tags.freshKey⟩ := by
  unfold addTag
  constructor
  · intro h
    obtain ⟨⟨⟩, hcheck, h⟩ := bind_eq_ok_iff.1 h
    cases h
    cases parent with
    | none => exact ⟨.rootTag hcheck, rfl⟩
    | some parent => exact ⟨.childTag hcheck, rfl⟩
  · rintro ⟨ha, rfl⟩
    cases ha with
    | rootTag hcheck => exact bind_eq_ok_iff.2 ⟨(), hcheck, rfl⟩
    | childTag hcheck => exact bind_eq_ok_iff.2 ⟨(), hcheck, rfl⟩

theorem addItem_eq_ok_iff {c d : Catalog} {folder : FolderId} {item : NewItem} {id : ItemId} :
    c.addItem folder item = .ok (d, id) ↔
      c.Adds (.item folder item) d ∧ id = ⟨c.items.freshKey⟩ := by
  have hfound : (item.tags.find? fun id => (c.tag? id).isNone) = none ↔
      ∀ id ∈ item.tags, ∃ t, c.tag? id = some t := by
    simp only [List.find?_eq_none, Bool.not_eq_true, Option.isNone_eq_false_iff,
      Option.isSome_iff_exists]
  unfold addItem
  constructor
  · intro h
    cases hf : c.folder? folder with
    | none => simp [hf] at h
    | some f =>
      cases ht : item.tags.find? fun id => (c.tag? id).isNone with
      | some missing => simp [hf, ht] at h
      | none =>
        simp only [hf, ht, Option.isNone_some, Bool.false_eq_true, if_false] at h
        cases h
        exact ⟨.item hf (hfound.1 ht), rfl⟩
  · rintro ⟨ha, rfl⟩
    cases ha with
    | item hf ht =>
      simp only [hf, hfound.2 ht, Option.isNone_some, Bool.false_eq_true, if_false]

section

variable {c d : Catalog} {call : BuildCall} {ι : Type} {id : ι}
  {x : Except BuildError (Catalog × ι)}

theorem getD_eq_or_adds (h : ∀ d id, x = .ok (d, id) → c.Adds call d) :
    (x.map (·.1)).toOption.getD c = c ∨ c.Adds call ((x.map (·.1)).toOption.getD c) := by
  cases x with
  | error e => exact Or.inl rfl
  | ok added => exact Or.inr (h added.1 added.2 rfl)

theorem getD_of_eq_error {e : BuildError} (h : x = .error e) :
    (x.map (·.1)).toOption.getD c = c := by
  rw [h]
  rfl

theorem getD_of_eq_ok (h : x = .ok (d, id)) : (x.map (·.1)).toOption.getD c = d := by
  rw [h]
  rfl

end

/-- A call fails and changes nothing, or it adds its record. -/
theorem after_cases (c : Catalog) (call : BuildCall) :
    c.after call = c ∨ c.Adds call (c.after call) := by
  cases call with
  | library displayName machineName absolutePath nsfw owner => exact Or.inr (.library ..)
  | folder library name => exact getD_eq_or_adds fun _ _ h => (addFolder_eq_ok_iff.1 h).1
  | subfolder parent name => exact getD_eq_or_adds fun _ _ h => (addSubfolder_eq_ok_iff.1 h).1
  | tag name parent => exact getD_eq_or_adds fun _ _ h => (addTag_eq_ok_iff.1 h).1
  | item folder item => exact getD_eq_or_adds fun _ _ h => (addItem_eq_ok_iff.1 h).1

theorem Adds.after_eq {c d : Catalog} {call : BuildCall} (h : c.Adds call d) :
    c.after call = d := by
  cases call with
  | library =>
    cases h
    rfl
  | folder library name => exact getD_of_eq_ok (addFolder_eq_ok_iff.2 ⟨h, rfl⟩)
  | subfolder parent name => exact getD_of_eq_ok (addSubfolder_eq_ok_iff.2 ⟨h, rfl⟩)
  | tag name parent => exact getD_of_eq_ok (addTag_eq_ok_iff.2 ⟨h, rfl⟩)
  | item folder item => exact getD_of_eq_ok (addItem_eq_ok_iff.2 ⟨h, rfl⟩)

theorem Built.of_adds {c d : Catalog} {call : BuildCall} (h : c.Built) (ha : c.Adds call d) :
    d.Built :=
  ha.after_eq ▸ h.after call

theorem built_foldl_after {c : Catalog} (h : c.Built) (calls : List BuildCall) :
    (calls.foldl after c).Built := by
  induction calls generalizing c with
  | nil => exact h
  | cons call rest ih => exact ih (h.after call)

theorem built_build (calls : List BuildCall) : (build calls).Built :=
  built_foldl_after .empty calls

end Catalog

end PictureSearch

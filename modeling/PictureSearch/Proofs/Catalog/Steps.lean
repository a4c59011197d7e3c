import PictureSearch.Proofs.Catalog.Built

/-!
# The steps of a call

A call that adds a record checks its arguments, keeps the record, lists it where it belongs and,
for a tag, enters its name.  `Building.ofCall` takes these steps one by one, on a catalog that stays
as it is wherever they break off.  A call does at once what its steps do, and where they break off
nothing was changed, since all checks come first:

    (Building.ofCall call).on c = (c.added call, c.after call)                 (Building.on_ofCall)
-/

namespace PictureSearch

/-! ## Calls, step by step -/

/-- Steps that change a catalog, and may break off; what was changed until then stays changed. -/
abbrev Building := ExceptT BuildError (StateM Catalog)

namespace Building

/-- What steps come to, and the catalog that they leave behind. -/
def on {α : Type} (x : Building α) (c : Catalog) : Except BuildError α × Catalog := x.run.run c

def insertLibrary (l : Library) : Building LibraryId := modifyGet fun c =>
  (⟨c.libraries.freshKey⟩, { c with libraries := c.libraries.insert c.libraries.freshKey l })

def insertFolder (f : Folder) : Building FolderId := modifyGet fun c =>
  (⟨c.folders.freshKey⟩, { c with folders := c.folders.insert c.folders.freshKey f })

def insertTag (t : Tag) : Building TagId := modifyGet fun c =>
  (⟨c.tags.freshKey⟩, { c with tags := c.tags.insert c.tags.freshKey t })

def insertItem (i : Item) : Building ItemId := modifyGet fun c =>
  (⟨c.items.freshKey⟩, { c with items := c.items.insert c.items.freshKey i })

def changeLibrary (id : LibraryId) (f : Library → Library) : Building Unit := modify fun c =>
  { c with libraries := c.libraries.update id.index f }

def changeFolder (id : FolderId) (f : Folder → Folder) : Building Unit := modify fun c =>
  { c with folders := c.folders.update id.index f }

def changeTag (id : TagId) (f : Tag → Tag) : Building Unit := modify fun c =>
  { c with tags := c.tags.update id.index f }

def enterName (name : String) (id : TagId) : Building Unit := modify fun c =>
  { c with tagIndex := c.tagIndex.add name id }

/-- The steps of a call, in the order in which they are taken. -/
def ofCall : BuildCall → Building Nat
  | .library displayName machineName absolutePath nsfw owner => do
    let id ← insertLibrary ⟨displayName, machineName, absolutePath, nsfw, owner, []⟩
    return id.index
  | .folder library name => do
    let some _ := (← get).library? library | throw (.noLibrary library)
    let id ← insertFolder ⟨name, library, none, [], []⟩
    changeLibrary library fun l => { l with folders := l.folders ++ [id] }
    return id.index
  | .subfolder parent name => do
    let some p := (← get).folder? parent | throw .noParentFolder
    let id ← insertFolder ⟨name, p.library, some parent, [], []⟩
    changeFolder parent fun f => { f with children := f.children ++ [id] }
    return id.index
  | .tag name parent => do
    if name.isEmpty || name.toList.contains '/' then throw (.invalidTagName name)
    match parent with
    | some parent =>
      if ((← get).tag? parent).isNone then throw (.noParentTag parent)
      if ((← get).childTag? (some parent) name).isSome then throw (.tagExists name parent)
    | none => if ((← get).childTag? none name).isSome then throw (.rootTagExists name)
    let id ← insertTag ⟨name, parent, []⟩
    if let some parent := parent then
      changeTag parent fun t => { t with children := t.children ++ [id] }
    enterName name id
    return id.index
  | .item folder item => do
    if ((← get).folder? folder).isNone then throw (.noFolder folder)
    let c ← get
    if let some missing := item.tags.find? fun id => (c.tag? id).isNone then throw (.noTag missing)
    let id ← insertItem
      { name := item.name, folder, width := item.width, height := item.height,
        rating := item.rating, nsfw := item.nsfw, comment := item.comment,
        size := item.size, tags := keepFirst item.tags }
    changeFolder folder fun f => { f with items := f.items ++ [id] }
    return id.index

/-! ## Lemmas: single steps -/

section On

variable {α β : Type} (c : Catalog)

theorem on_get : on get c = (.ok c, c) := rfl

/-- Where the first steps break off, the catalog stays as they left it. -/
theorem on_bind (x : Building α) (f : α → Building β) :
    on (x >>= f) c =
      match on x c with
      | (.ok a, d) => on (f a) d
      | (.error e, d) => (.error e, d) := by
  show (ExceptT.bindCont f (on x c).1 : StateM Catalog (Except BuildError β)).run (on x c).2 = _
  rcases on x c with ⟨e | a, d⟩
  · rfl
  · rfl

end On

open Catalog in
/-- Taken one by one the steps of a call do what the call does. -/
theorem on_ofCall (c : Catalog) (call : BuildCall) :
    (ofCall call).on c = (c.added call, c.after call) := by
  cases call with
  | library => rfl
  | folder library name =>
    simp only [ofCall, on_bind, on_get, added, after, afterAt, freeNumber, addFolder]
    cases c.library? library with
    | none => rfl
    | some l => rfl
  | subfolder parent name =>
    simp only [ofCall, on_bind, on_get, added, after, afterAt, freeNumber, addSubfolder]
    cases c.folder? parent with
    | none => rfl
    | some p => rfl
  | tag name parent =>
    by_cases hname : (name.isEmpty || name.toList.contains '/') = true
    · simp only [ofCall, on_bind, added, after, afterAt, freeNumber, addTag, checkTag, if_pos hname]
      rfl
    · cases parent with
      | none =>
        simp only [ofCall, on_bind, on_get, added, after, afterAt, freeNumber, addTag, checkTag,
          if_neg hname]
        cases c.childTag? none name with
        | none => rfl
        | some other => rfl
      | some above =>
        simp only [ofCall, on_bind, on_get, added, after, afterAt, freeNumber, addTag, checkTag,
          if_neg hname]
        cases c.tag? above with
        | none => rfl
        | some t =>
          simp only [on_bind, on_get, Bool.false_eq_true, if_false, Option.isNone_some]
          cases c.childTag? (some above) name with
          | none => rfl
          | some other => rfl
  | item folder item =>
    simp only [ofCall, on_bind, on_get, added, after, afterAt, freeNumber, addItem]
    cases c.folder? folder with
    | none => rfl
    | some f =>
      simp only [on_bind, on_get, Bool.false_eq_true, if_false, Option.isNone_some]
      cases item.tags.find? fun id => (c.tag? id).isNone with
      | some missing => rfl
      | none => rfl

end Building

end PictureSearch

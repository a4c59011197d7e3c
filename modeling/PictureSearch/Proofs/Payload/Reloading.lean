import PictureSearch.Proofs.Payload.Catalog
import PictureSearch.Proofs.Search.Noninterference

/-!
# Reloading is not noticed

A catalog is used by requests: to add a record, to look one up, to name or follow a path, to answer
a query, to give its bytes.  Between them it may be written and read back.  However often that
happens, all replies are those of the catalog that was never written:

    (calls steps).length < UInt64.size → (∀ call ∈ calls steps, call.TextsFit) →
      empty.use steps = .ok (empty.serve (requests steps))                     (use_eq_serve)

A word counts the records and the bytes of a text where they are written, so there may be no more
of them than a word counts.
-/

namespace PictureSearch

/-! ## Requests and replies -/

inductive Request
  | add (call : BuildCall)
  | library (id : LibraryId)
  | folder (id : FolderId)
  | item (id : ItemId)
  | tag (id : TagId)
  | libraryNamed (machineName : String)
  | tagsNamed (name : String)
  | tagAt (path : String)
  | tagPath (id : TagId)
  | itemPath (id : ItemId)
  | libraryOf (item : Item)
  | visible (item : Item) (viewer : ViewerId)
  | nsfw (item : Item)
  | tagNames (item : Item)
  | summary
  | query (exposed : List Attribute) (root : Query.Group) (viewer : ViewerId) (key : OrderKey)
      (direction : Direction) (offset : Nat) (limit : Option Nat)
  | payload

inductive Reply
  /-- The number of the new record, or why there is none. -/
  | added (number : Except BuildError Nat)
  | library (found : Option Library)
  | folder (found : Option Folder)
  | item (found : Option Item)
  | tag (found : Option Tag)
  | libraryId (found : Option LibraryId)
  | tagId (found : Option TagId)
  | tagIds (found : List TagId)
  | path (found : Option String)
  | flag (holds : Bool)
  | names (found : List String)
  | line (text : String)
  | answer (told : Except ExecutionError Catalog.Answer)
  | bytes (payload : List UInt8)

/-- A request, or the catalog being written and read back. -/
inductive Step
  | request (r : Request)
  | reload

/-- The requests among some steps. -/
def requests (steps : List Step) : List Request :=
  steps.filterMap fun
    | .request r => some r
    | .reload => none

/-- The calls among some steps that add a record, or try to. -/
def calls (steps : List Step) : List BuildCall :=
  steps.filterMap fun
    | .request (.add call) => some call
    | _ => none

namespace Catalog

def reply (c : Catalog) : Request → Reply
  | .add call => .added (c.added call)
  | .library id => .library (c.library? id)
  | .folder id => .folder (c.folder? id)
  | .item id => .item (c.item? id)
  | .tag id => .tag (c.tag? id)
  | .libraryNamed machineName => .libraryId (c.libraryNamed? machineName)
  | .tagsNamed name => .tagIds (c.tagsNamed name)
  | .tagAt path => .tagId (c.tagAt? path)
  | .tagPath id => .path (c.tagPath? id)
  | .itemPath id => .path (c.itemPath? id)
  | .libraryOf item => .library (c.libraryOf? item)
  | .visible item viewer => .flag (c.visibleTo item viewer)
  | .nsfw item => .flag (c.isNsfw item)
  | .tagNames item => .names (c.tagNames item)
  | .summary => .line c.summary
  | .query exposed root viewer key direction offset limit =>
    .answer (c.answer exposed root viewer key direction offset limit)
  | .payload => .bytes c.toPayload

/-- The catalog after a request. -/
def next (c : Catalog) : Request → Catalog
  | .add call => c.after call
  | _ => c

/-- The replies to requests, one after the other, and the catalog behind the last. -/
def serve (c : Catalog) : List Request → Catalog × List Reply
  | [] => (c, [])
  | r :: rest => ((serve (c.next r) rest).1, c.reply r :: (serve (c.next r) rest).2)

/-- The replies to the requests among some steps, and the catalog behind the last step; a catalog
that cannot be read back has none. -/
def use (c : Catalog) : List Step → Except Payload.Malformed (Catalog × List Reply)
  | [] => .ok (c, [])
  | .request r :: rest => (use (c.next r) rest).map fun (d, replies) => (d, c.reply r :: replies)
  | .reload :: rest => ofPayload c.toPayload >>= fun d => use d rest

/-- There are at most `n` records of each kind. -/
structure AtMost (n : Nat) (c : Catalog) : Prop where
  libraries : c.libraries.size ≤ n
  folders : c.folders.size ≤ n
  items : c.items.size ≤ n
  tags : c.tags.size ≤ n

end Catalog

namespace BuildCall

/-- Words count the bytes of the texts that the call brings. -/
def TextsFit : BuildCall → Prop
  | .library displayName machineName absolutePath _ _ =>
    Text.FitsWord displayName ∧ Text.FitsWord machineName ∧ Text.FitsWord absolutePath
  | .folder _ name => Text.FitsWord name
  | .subfolder _ name => Text.FitsWord name
  | .tag name _ => Text.FitsWord name
  | .item _ i => Text.FitsWord i.name ∧ ∀ s ∈ i.comment, Text.FitsWord s

instance : DecidablePred TextsFit
  | .library displayName machineName absolutePath _ _ =>
    inferInstanceAs (Decidable (Text.FitsWord displayName ∧ Text.FitsWord machineName ∧
      Text.FitsWord absolutePath))
  | .folder _ name => inferInstanceAs (Decidable (Text.FitsWord name))
  | .subfolder _ name => inferInstanceAs (Decidable (Text.FitsWord name))
  | .tag name _ => inferInstanceAs (Decidable (Text.FitsWord name))
  | .item _ i =>
    inferInstanceAs (Decidable (Text.FitsWord i.name ∧ ∀ s ∈ i.comment, Text.FitsWord s))

end BuildCall

/-! ## Lemmas -/

namespace Catalog

/-- A call adds at most one record. -/
theorem AtMost.of_adds {n : Nat} {c d : Catalog} {call : BuildCall} (h : c.AtMost n)
    (hl : c.Links) (ha : c.Adds call d) : d.AtMost (n + 1) := by
  obtain ⟨hlibraries, hfolders, hitems, htags⟩ := h
  have insert {υ : Type} {m : SortedMap Nat υ} (hm : m.Gapless) (h : m.size ≤ n) (v : υ) :
      (m.insert m.freshKey v).size ≤ n + 1 := by
    rw [hm.size_insert_freshKey]
    omega
  have update {υ : Type} {m : SortedMap Nat υ} {size : Nat} (h : m.size ≤ size) (k : Nat)
      (f : υ → υ) : (m.update k f).size ≤ size := by rwa [SortedMap.size_update]
  have same {size : Nat} (h : size ≤ n) : size ≤ n + 1 := Nat.le_succ_of_le h
  cases ha with
  | library =>
    exact ⟨insert hl.folders.gapless hlibraries _, same hfolders, same hitems, same htags⟩
  | folder =>
    exact ⟨update (same hlibraries) _ _, insert hl.folders.ranked.gapless hfolders _, same hitems,
      same htags⟩
  | subfolder =>
    exact ⟨same hlibraries, update (insert hl.folders.ranked.gapless hfolders _) _ _, same hitems,
      same htags⟩
  | rootTag =>
    exact ⟨same hlibraries, same hfolders, same hitems, insert hl.tags.ranked.gapless htags _⟩
  | childTag =>
    exact ⟨same hlibraries, same hfolders, same hitems,
      update (insert hl.tags.ranked.gapless htags _) _ _⟩
  | item =>
    exact ⟨same hlibraries, update (same hfolders) _ _, insert hl.items.gapless hitems _,
      same htags⟩

theorem TextsFit.of_adds {c d : Catalog} {call : BuildCall} (h : c.TextsFit)
    (hcall : call.TextsFit) (ha : c.Adds call d) : d.TextsFit := by
  obtain ⟨hlibraries, hfolders, hitems, htags⟩ := h
  cases ha with
  | library => exact ⟨hlibraries.insert _ hcall, hfolders, hitems, htags⟩
  | folder =>
    exact ⟨hlibraries.update _ fun _ h => h, hfolders.insert _ hcall, hitems, htags⟩
  | subfolder =>
    refine ⟨hlibraries, SortedMap.All.update ?_ _ fun _ h => h, hitems, htags⟩
    exact hfolders.insert _ hcall
  | rootTag => exact ⟨hlibraries, hfolders, hitems, htags.insert _ hcall⟩
  | childTag =>
    refine ⟨hlibraries, hfolders, hitems, SortedMap.All.update ?_ _ fun _ h => h⟩
    exact htags.insert _ hcall
  | item => exact ⟨hlibraries, hfolders.update _ fun _ h => h, hitems.insert _ hcall, htags⟩

/-- What makes a catalog one that is read back as it was, while at most `n` calls were made. -/
structure Kept (n : Nat) (c : Catalog) : Prop where
  links : c.Links
  atMost : c.AtMost n
  texts : c.TextsFit

theorem kept_empty : Kept 0 empty :=
  ⟨⟨.empty, .empty, .empty⟩, ⟨Nat.le_refl 0, Nat.le_refl 0, Nat.le_refl 0, Nat.le_refl 0⟩,
    ⟨.empty, .empty, .empty, .empty⟩⟩

theorem Kept.succ {n : Nat} {c : Catalog} (h : c.Kept n) : c.Kept (n + 1) := by
  obtain ⟨hlibraries, hfolders, hitems, htags⟩ := h.atMost
  exact ⟨h.links, ⟨by omega, by omega, by omega, by omega⟩, h.texts⟩

theorem Kept.after {n : Nat} {c : Catalog} (h : c.Kept n) {call : BuildCall}
    (hcall : call.TextsFit) : (c.after call).Kept (n + 1) := by
  rcases c.after_cases call with heq | ha
  · rw [heq]
    exact h.succ
  · exact ⟨h.links.of_adds ha, h.atMost.of_adds h.links ha, h.texts.of_adds hcall ha⟩

theorem Kept.ofPayload_toPayload {n : Nat} {c : Catalog} (h : c.Kept n) (hn : n < UInt64.size) :
    ofPayload c.toPayload = .ok c := by
  obtain ⟨hlibraries, hfolders, hitems, htags⟩ := h.atMost
  have := Catalog.ofPayload_toPayload h.links
    ⟨by omega, by omega, by omega, by omega, h.texts⟩ []
  rwa [List.append_nil] at this

/-- What a request makes of the rest of the steps. -/
theorem use_request {c : Catalog} {r : Request} {rest : List Step}
    (h : (c.next r).use rest = .ok ((c.next r).serve (requests rest))) :
    c.use (.request r :: rest) = .ok (c.serve (requests (.request r :: rest))) := by
  rw [Catalog.use, h]
  rfl

theorem Kept.use {n : Nat} {c : Catalog} (h : c.Kept n) {steps : List Step}
    (hn : n + (calls steps).length < UInt64.size) (htexts : ∀ call ∈ calls steps, call.TextsFit) :
    c.use steps = .ok (c.serve (requests steps)) ∧
      (c.serve (requests steps)).1.Kept (n + (calls steps).length) := by
  induction steps generalizing n c with
  | nil => exact ⟨rfl, h⟩
  | cons step rest ih =>
    cases step with
    | request r =>
      cases r with
      | add call =>
        have hcalls : calls (.request (.add call) :: rest) = call :: calls rest := rfl
        have hcount : n + (call :: calls rest).length = n + 1 + (calls rest).length := by
          rw [List.length_cons]
          omega
        rw [hcalls, hcount] at hn ⊢
        rw [hcalls, List.forall_mem_cons] at htexts
        obtain ⟨huse, hkept⟩ := ih (h.after htexts.1) hn htexts.2
        exact ⟨use_request huse, hkept⟩
      | _ =>
        obtain ⟨huse, hkept⟩ := ih h hn htexts
        exact ⟨use_request huse, hkept⟩
    | reload =>
      obtain ⟨huse, hkept⟩ := ih h hn htexts
      have hread : ofPayload c.toPayload = .ok c := h.ofPayload_toPayload (by omega)
      refine ⟨?_, hkept⟩
      rw [Catalog.use, hread]
      exact huse

/-! ## Top theorem -/

/-- What is read back is the catalog that was written, and no reply tells that it was. -/
theorem use_eq_serve (steps : List Step) (hcount : (calls steps).length < UInt64.size)
    (htexts : ∀ call ∈ calls steps, call.TextsFit) :
    ofPayload (empty.serve (requests steps)).1.toPayload =
        .ok (empty.serve (requests steps)).1 ∧
      empty.use steps = .ok (empty.serve (requests steps)) := by
  obtain ⟨huse, hkept⟩ := kept_empty.use (by omega) htexts
  exact ⟨hkept.ofPayload_toPayload (by omega), huse⟩

/-- Tags and folders nested and reloaded in between, with a call that fails and a flagged picture
that has a comment. -/
def reloadedOften : List Step :=
  [.request (.add (.library "Own" "own" "/srv/own" true (some ⟨18446744073709551615⟩))), .reload,
   .request (.add (.folder ⟨0⟩ "Foo Files 1")), .request (.add (.tag "IFDY" none)), .reload,
   .request (.add (.tag "IFDY" (some ⟨0⟩))), .request (.add (.tag "IFDY" none)), .reload, .reload,
   .request (.add (.item ⟨0⟩ { name := "ü.png", width := 4294967295, height := 480, rating := 255,
                               nsfw := true, comment := some "", tags := [⟨1⟩, ⟨0⟩, ⟨1⟩] })),
   .reload, .request (.tagsNamed "IFDY"), .request (.itemPath ⟨0⟩), .request .payload]

theorem use_eq_serve_reloadedOften :
    (calls reloadedOften).length < UInt64.size ∧ (∀ call ∈ calls reloadedOften, call.TextsFit) ∧
      ofPayload (empty.serve (requests reloadedOften)).1.toPayload =
          .ok (empty.serve (requests reloadedOften)).1 ∧
        empty.use reloadedOften = .ok (empty.serve (requests reloadedOften)) := by
  have hcount : (calls reloadedOften).length < UInt64.size := by decide
  have htexts : ∀ call ∈ calls reloadedOften, call.TextsFit := by decide
  exact ⟨hcount, htexts, use_eq_serve reloadedOften hcount htexts⟩

end Catalog

end PictureSearch

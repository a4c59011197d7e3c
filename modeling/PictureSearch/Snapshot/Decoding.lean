import PictureSearch.Json.Fields
import PictureSearch.Json.Reader
import PictureSearch.Snapshot.Basic

/-!
# Reading snapshots from JSON

The records of a snapshot may be nested `maxNesting` deep, lists of records counting as levels of
their own; what stands under keys that are passed over may be nested to any depth.
-/

namespace PictureSearch.Snapshot

open Json (Fields fields? list? text? bool? uint8? uint32? uint64? nullable?)

/-- The most levels of records and lists. -/
def maxNesting : Nat := 127

/-- A tag, with `room` levels left for it. -/
def Tag.ofJson? : (room : Nat) → Json → Option Tag
  | 0, _ => none
  | room + 1, v => do
    let fs ← fields? ["name", "children"] v
    let name ← fs.required "name" text?
    let children ← fs.optional "children" [] fun v =>
      match room, v with
      | room + 1, .array elements => elements.mapM (Tag.ofJson? room)
      | _, _ => none
    return .mk name children

def Item.ofJson? : (room : Nat) → Json → Option Item
  | 0, _ => none
  | room + 1, v => do
    let fs ← fields? ["name", "width", "height", "rating", "nsfw", "comment", "size", "tags"] v
    let name ← fs.required "name" text?
    let width ← fs.required "width" uint32?
    let height ← fs.required "height" uint32?
    let rating ← fs.optional "rating" 0 uint8?
    let nsfw ← fs.optional "nsfw" false bool?
    let comment ← fs.optional "comment" none (nullable? text?)
    let size ← fs.optional "size" 0 uint64?
    let tags ← fs.optional "tags" [] (list? room fun _ => text?)
    return { name, width, height, rating, nsfw, comment, size, tags }

def Folder.ofJson? : (room : Nat) → Json → Option Folder
  | 0, _ => none
  | room + 1, v => do
    let fs ← fields? ["name", "folders", "items"] v
    let name ← fs.required "name" text?
    let folders ← fs.optional "folders" [] fun v =>
      match room, v with
      | room + 1, .array elements => elements.mapM (Folder.ofJson? room)
      | _, _ => none
    let items ← fs.optional "items" [] (list? room Item.ofJson?)
    return .mk name folders items

def Library.ofJson? : (room : Nat) → Json → Option Library
  | 0, _ => none
  | room + 1, v => do
    let fs ← fields?
      ["display_name", "machine_name", "absolute_path", "nsfw", "owner", "folders"] v
    let displayName ← fs.required "display_name" text?
    let machineName ← fs.required "machine_name" text?
    let absolutePath ← fs.optional "absolute_path" "" text?
    let nsfw ← fs.optional "nsfw" false bool?
    let owner ← fs.optional "owner" none (nullable? uint64?)
    let folders ← fs.optional "folders" [] (list? room Folder.ofJson?)
    return { displayName, machineName, absolutePath, nsfw, owner, folders }

/-- The snapshot that a JSON value describes. -/
def ofJson? : (room : Nat) → Json → Option Snapshot
  | 0, _ => none
  | room + 1, v => do
    let fs ← fields? ["tags", "libraries"] v
    let tags ← fs.optional "tags" [] (list? room Tag.ofJson?)
    let libraries ← fs.optional "libraries" [] (list? room Library.ofJson?)
    return { tags, libraries }

/-- The snapshot that a JSON text describes. -/
def read? (text : String) : Option Snapshot := (Json.read? text).bind (ofJson? maxNesting)

end PictureSearch.Snapshot

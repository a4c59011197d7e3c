import PictureSearch.Json.Fields
import PictureSearch.Json.Printer
import PictureSearch.Json.Reader
import PictureSearch.Saved.Searches

/-!
# The file of saved searches

Saved searches are kept as a JSON text: an object of owners, each an object from names to queries.
Reading does not look into the queries.  Of repeated owners or names the last counts.
-/

namespace PictureSearch.SavedSearches

/-! ## Writing -/

def toJson (s : SavedSearches) : Json :=
  .ofMembers [("owners", .object (s.owners.entries.map fun e =>
    (toString e.1.toNat, .ofMembers (e.2.entries.map fun m => (m.1, .ofText m.2)))))]

/-- The text of the file. -/
def toText (s : SavedSearches) : String := s.toJson.pretty

/-! ## Reading -/

/-- The owner that a key spells: digits alone, without leading zeros. -/
def owner? (spelling : String) : Option UInt64 :=
  match spelling.toList with
  | '0' :: _ :: _ => none
  | digits => ((Text.decimal? digits).filter (· < UInt64.size)).map UInt64.ofNat

/-- The searches of one owner. -/
def searches? : Json → Option (SortedMap String String)
  | .object members =>
    (members.mapM fun (key, v) => do
      let name ← Json.unescape key
      let query ← Json.text? v
      return (name, query)).map .ofList
  | _ => none

def ofJson? (v : Json) : Option SavedSearches := do
  let fields ← v.fields? ["owners"]
  match fields.lookup "owners" with
  | some (.object members) =>
    let owners ← members.mapM fun (key, v) => do
      let owner ← owner? key
      let searches ← searches? v
      return (owner, searches)
    return ⟨.ofList owners⟩
  | _ => none

/-- The saved searches in the text of a file. -/
def ofText? (text : String) : Option SavedSearches := (Json.read? text).bind ofJson?

end PictureSearch.SavedSearches

import PictureSearch.Query.Parser
import PictureSearch.SortedMap

/-!
# Saved searches

Named queries, kept for each owner.  Only text that parses is saved; it is compiled again whenever
it runs.  An owner without searches is forgotten.
-/

namespace PictureSearch

/-- The queries of each owner, by name; owners go by number and names by code point. -/
structure SavedSearches where
  owners : SortedMap UInt64 (SortedMap String String)

namespace SavedSearches

def empty : SavedSearches := ⟨.empty⟩

variable (s : SavedSearches)

/-- The searches of an owner. -/
def ownedBy (owner : UInt64) : SortedMap String String := (s.owners.find? owner).getD .empty

def get? (owner : UInt64) (name : String) : Option String := (s.ownedBy owner).find? name

/-- The searches of an owner in the order of their names. -/
def list (owner : UInt64) : List (String × String) := (s.ownedBy owner).entries

/-- Saves a query under a name, if it parses; also gives the query that was there before. -/
def save (owner : UInt64) (name query : String) :
    Except Query.SyntaxError (SavedSearches × Option String) :=
  match Query.parse query with
  | .error e => .error e
  | .ok _ => .ok (⟨s.owners.insert owner ((s.ownedBy owner).insert name query)⟩, s.get? owner name)

/-- Drops a search; also gives its query, if there was one. -/
def remove (owner : UInt64) (name : String) : SavedSearches × Option String :=
  let rest := (s.ownedBy owner).erase name
  (⟨if rest.isEmpty then s.owners.erase owner else s.owners.insert owner rest⟩, s.get? owner name)

end SavedSearches

end PictureSearch

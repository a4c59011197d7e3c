import PictureSearch.Payload.Catalog
import PictureSearch.Payload.Frame
import PictureSearch.Query.Encoding
import PictureSearch.Saved.File
import PictureSearch.Search.Compile
import PictureSearch.Search.Results
import PictureSearch.Session.Command
import PictureSearch.Session.Options
import PictureSearch.Session.Task
import PictureSearch.Snapshot.Loading

/-!
# Starting a session

A session loads its catalog, looks up the order of its results and either runs the one query it
was given or reads its saved searches.  The first of these that fails ends it.
-/

namespace PictureSearch.Session

/-- Why a session ends with an error. -/
inductive StopError
  | catalog (e : LoadError)
  | cache
  | orderKey (name : String)
  | query (e : QueryError)
  | savedUnreadable (path : String)
  | savedMalformed
  | input
  deriving DecidableEq, Repr

def StopError.message : StopError → String
  | .catalog e => e.message
  | .cache => "Failed to write catalog cache"
  | .orderKey name => "unknown order key " ++ Text.quoted name
  | .query e => e.display
  | .savedUnreadable path => "Failed to read saved searches " ++ path
  | .savedMalformed => "Failed to parse saved searches"
  | .input => "Failed to read stdin"

/-- How a session ends. -/
inductive Ending
  | finished
  | failed (e : StopError)
  deriving DecidableEq, Repr

end PictureSearch.Session

namespace PictureSearch

/-- A session that takes commands. -/
structure Session where
  catalog : Catalog
  viewer : ViewerId
  key : OrderKey
  direction : Direction
  perPage : Nat
  saved : SavedSearches
  /-- The file of saved searches. -/
  savedPath : Option String

end PictureSearch

namespace PictureSearch.Session

/-! ## Queries -/

/-- The text of a query, ready to run as the session's viewer. -/
def compile (s : Session) (text : String) (page : Nat) : Except QueryError ItemQuery :=
  (compileText Attribute.all text s.viewer).map fun predicate =>
    ({ predicate, key := s.key, direction := s.direction } : ItemQuery).page page s.perPage

/-- The lines of rows, the first of which has the number `row`. -/
def rowLines (row : Nat) : List ItemView → List String
  | [] => []
  | v :: rest => ("[" ++ toString row ++ "] " ++ v.display) :: rowLines (row + 1) rest

/-- The lines of a page: its rows with their numbers in the whole result, and how many there
are. -/
def pageLines (s : Session) (q : ItemQuery) (page : Nat) : List String :=
  let views := s.catalog.views q
  rowLines (page * s.perPage) views ++
    [toString views.length ++ " of " ++ toString (s.catalog.count q) ++ " matches"]

/-- Prints a page of the result of a query. -/
def search (s : Session) (text : String) (page : Nat) : Task (Except QueryError Unit) :=
  match s.compile text page with
  | .error e => return .error e
  | .ok q => do
    (s.pageLines q page).forM Task.printLine
    return .ok ()

/-! ## Files -/

/-- The catalog in the bytes of a cache file. -/
def ofCache? (bytes : List UInt8) : Option Catalog := do
  let payload ← Payload.Frame.unpack bytes
  (Catalog.ofPayload payload).toOption

/-- The catalog in the file of a snapshot. -/
def readSnapshot (path : String) : Task (Except LoadError Catalog) := do
  match ← Task.readFile path with
  | .content bytes =>
    match Payload.Coder.ofUtf8? bytes with
    | some text => return Catalog.ofSnapshotText text
    | none => return .error (.unreadable path)
  | _ => return .error (.unreadable path)

/-- The catalog in a usable cache file. -/
def readCache (path : Option String) : Task (Option Catalog) := do
  match path with
  | none => return none
  | some path =>
    match ← Task.readFile path with
    | .content bytes => return ofCache? bytes
    | _ => return none

/-- Keeps a catalog in a cache file, if there is to be one. -/
def writeCache (path : Option String) (c : Catalog) : Task (Except StopError Catalog) := do
  match path with
  | none => return .ok c
  | some path =>
    match ← Task.replaceFile path "cctmp" (Payload.Frame.pack c.toPayload) with
    | none => return .ok c
    | some _ => return .error .cache

/-- The catalog in the cache; else that of the snapshot, which then goes into the cache. -/
def loadCatalog (o : Options) : Task (Except StopError Catalog) := do
  match ← readCache o.cache with
  | some c => return .ok c
  | none =>
    match ← readSnapshot o.catalog with
    | .error e => return .error (.catalog e)
    | .ok c => writeCache o.cache c

/-- The saved searches in a file; none if there is no file. -/
def loadSaved (path : Option String) : Task (Except StopError SavedSearches) := do
  match path with
  | none => return .ok .empty
  | some path =>
    match ← Task.readFile path with
    | .absent => return .ok .empty
    | .unreadable => return .error (.savedUnreadable path)
    | .content bytes =>
      match Payload.Coder.ofUtf8? bytes with
      | none => return .error (.savedUnreadable path)
      | some text =>
        match SavedSearches.ofText? text with
        | none => return .error .savedMalformed
        | some saved => return .ok saved

/-! ## Algorithm -/

/-- Starts a session, unless it has come to its end already. -/
def start (o : Options) : Task (Except Ending Session) := do
  match ← loadCatalog o with
  | .error e => return .error (.failed e)
  | .ok catalog =>
    match OrderKey.ofText? o.order with
    | none => return .error (.failed (.orderKey o.order))
    | some key =>
      let session : Session :=
        { catalog, viewer := ⟨o.viewer⟩, key,
          direction := if o.descending then .descending else .ascending,
          perPage := o.perPage, saved := .empty, savedPath := o.saved }
      match o.query with
      | some text =>
        match ← session.search text 0 with
        | .ok () => return .error .finished
        | .error e => return .error (.failed (.query e))
      | none =>
        match ← loadSaved o.saved with
        | .error e => return .error (.failed e)
        | .ok saved => return .ok { session with saved }

end PictureSearch.Session

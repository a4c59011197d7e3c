import PictureSearch.Text.Pieces

/-!
# Options

What a session is told on the command line and by its environment.  Every flag may be given once,
its value behind an equals sign or as the next argument; a flag beats its variable.
-/

namespace PictureSearch.Session

/-- The settings of a session. -/
structure Options where
  /-- The file of the snapshot. -/
  catalog : String
  viewer : UInt64
  /-- How many pictures a page holds. -/
  perPage : Nat
  /-- The name of the order key. -/
  order : String
  descending : Bool
  /-- The file of saved searches. -/
  saved : Option String
  /-- The file that the catalog is kept in once it has been loaded. -/
  cache : Option String
  /-- The one query to run. -/
  query : Option String
  deriving DecidableEq, Repr

inductive Flag
  | catalog | viewer | perPage | order | descending | saved | cache | query
  deriving DecidableEq, Repr

namespace Flag

def all : List Flag :=
  [.catalog, .viewer, .perPage, .order, .descending, .saved, .cache, .query]

def ofText? : String → Option Flag
  | "catalog" => some .catalog
  | "viewer" => some .viewer
  | "per-page" => some .perPage
  | "order" => some .order
  | "descending" => some .descending
  | "saved" => some .saved
  | "cache" => some .cache
  | "query" => some .query
  | _ => none

/-- The variable that stands in for a flag that is not given. -/
def envName? : Flag → Option String
  | .catalog => some "COF_CATALOG"
  | .viewer => some "COF_VIEWER"
  | .perPage => some "COF_ITEMS_PER_PAGE"
  | .saved => some "COF_SAVED_SEARCHES"
  | .cache => some "COF_CATALOG_CACHE"
  | .order | .descending | .query => none

end Flag

/-! ## Arguments -/

/-- The flags that are given, with their values; the flag for descending order has an empty one. -/
abbrev Given := List (Flag × String)

/-- Whether an argument can be the value of the flag before it. -/
def isValue (arg : String) : Bool := arg == "-" || arg.toList.head? != some '-'

/-- The name of a long flag, and its value if there is an equals sign. -/
def flagParts (arg : String) : Option (String × Option String) :=
  match arg.toList with
  | '-' :: '-' :: rest =>
    let name := rest.takeWhile (· != '=')
    let value := if rest.contains '=' then some (String.ofList (rest.drop (name.length + 1))) else none
    some (String.ofList name, value)
  | _ => none

/-- The flags of a list of arguments. -/
def given? : List String → Option Given
  | [] => some []
  | ["--"] => some []
  | arg :: rest =>
    match flagParts arg with
    | none => none
    | some (name, value) =>
      match Flag.ofText? name, value, rest with
      | none, _, _ => none
      | some .descending, none, rest => (given? rest).map ((.descending, "") :: ·)
      | some .descending, some _, _ => none
      | some flag, some value, rest => (given? rest).map ((flag, value) :: ·)
      | some flag, none, value :: rest =>
        if isValue value then (given? rest).map ((flag, value) :: ·) else none
      | some _, none, [] => none

/-! ## Options -/

/-- A file has a name. -/
def path? (s : String) : Option String := if s.isEmpty then none else some s

/-- Numbers of viewers and sizes of pages are below `2 ^ 64`. -/
def number? (s : String) : Option Nat := Text.boundedDecimal? UInt64.size s.toList

/-- The value given for a flag, by the flag itself or by its variable. -/
def valueOf (given : Given) (env : List (String × String)) (flag : Flag) : Option String :=
  match given.lookup flag with
  | some value => some value
  | none => flag.envName?.bind fun name => env.lookup name

/-- Reads a value that may be left out. -/
def optionally {α : Type} (read : String → Option α) : Option String → Option (Option α)
  | none => some none
  | some value => (read value).map some

/-- The options, unless something given is not acceptable. -/
def Options.ofArguments? (args : List String) (env : List (String × String)) : Option Options := do
  let given ← given? args
  if ¬ (given.map (·.1)).Nodup then none
  let catalog ← (valueOf given env .catalog).bind path?
  let viewer ← optionally number? (valueOf given env .viewer)
  let perPage ← optionally number? (valueOf given env .perPage)
  let saved ← optionally path? (valueOf given env .saved)
  let cache ← optionally path? (valueOf given env .cache)
  return {
    catalog
    viewer := UInt64.ofNat (viewer.getD 0)
    perPage := perPage.getD 20
    order := (given.lookup .order).getD "name"
    descending := (given.lookup .descending).isSome
    saved
    cache
    query := given.lookup .query
  }

end PictureSearch.Session

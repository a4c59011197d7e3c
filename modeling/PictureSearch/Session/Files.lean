import PictureSearch.Session.Pathname
import PictureSearch.SortedMap

/-!
# Files

The files that a session works with, as a value: files and directories under their places, most of
them below the working directory.  A file is replaced by writing a new one beside it and putting
that in its place.
-/

namespace PictureSearch.Session

inductive Entry
  | file (content : List UInt8)
  | directory
  deriving DecidableEq, Repr

/-- The part of replacing a file that failed. -/
inductive WriteFailure
  | creatingDirectory
  | writing
  | renaming
  deriving DecidableEq, Repr

/-- What is found when a file is to be read. -/
inductive Reading
  | absent
  /-- Something is there, but no file. -/
  | unreadable
  | content (bytes : List UInt8)
  deriving DecidableEq, Repr

/-! ## Places -/

/-- A place for a file. -/
inductive Place
  | root
  /-- The directory that many levels above the working directory. -/
  | above (levels : Nat)
  | inside (directory : Place) (name : String)
  deriving DecidableEq, Repr

namespace Place

def workingDirectory : Place := .above 0

/-- The directory that a place is in; the root is in itself. -/
def up : Place → Place
  | .root => .root
  | .above levels => .above (levels + 1)
  | .inside directory _ => directory

/-- The key of a place.  No name holds a slash or is two points, so different places have different
keys. -/
def key : Place → String
  | .root => ""
  | .above levels => "/".intercalate ("." :: List.replicate levels "..")
  | .inside directory name => directory.key ++ "/" ++ name

end Place

/-- Where the way along a pathname starts, and the pieces that are left to go. -/
def Pathname.route (p : Pathname) : Place × List String :=
  match p.pieces with
  | "" :: piece :: rest => (.root, piece :: rest)
  | pieces => (.workingDirectory, pieces)

/-- The entries under the keys of their places.  The root, the working directory and those above it
are always there. -/
structure Files where
  entries : SortedMap String Entry

namespace Files

variable (fs : Files)

def entry? : Place → Option Entry
  | .inside directory name => fs.entries.find? (Place.inside directory name).key
  | _ => some .directory

def isDirectory (place : Place) : Bool := fs.entry? place == some .directory

def put (place : Place) (e : Entry) : Files := ⟨fs.entries.insert place.key e⟩

/-- The working directory is empty; elsewhere there is what every machine has: the null device,
and a directory for files that do not last. -/
def fresh : Files :=
  let devices := Place.root.inside "dev"
  let bare : Files := ⟨.empty⟩
  ((bare.put devices .directory).put (devices.inside "null") (.file [])).put
    (Place.root.inside "tmp") .directory

/-- The place that pieces lead to; all places on the way have to be directories. -/
def walk (place : Place) : List String → Option Place
  | [] => some place
  | piece :: rest =>
    if fs.isDirectory place then
      if Pathname.staysPut piece then walk place rest
      else if piece = ".." then walk place.up rest
      else if piece.utf8ByteSize ≤ Pathname.nameLimit then walk (place.inside piece) rest
      else none
    else none

/-- The place that a pathname leads to. -/
def locate (p : Pathname) : Option Place :=
  if p.fits then fs.walk p.route.1 p.route.2 else none

/-- Makes the directories that pieces lead through, as far as no file and no name that is too long
is in the way; whether none is. -/
def makeDirectories (fs : Files) (place : Place) : List String → Files × Bool
  | [] => (fs, true)
  | piece :: rest =>
    if Pathname.staysPut piece then makeDirectories fs place rest
    else if piece = ".." then makeDirectories fs place.up rest
    else if piece.utf8ByteSize ≤ Pathname.nameLimit then
      let next := place.inside piece
      match fs.entry? next with
      | some (.file _) => (fs, false)
      | some .directory => makeDirectories fs next rest
      | none => makeDirectories (fs.put next .directory) next rest
    else (fs, false)

/-- Makes a directory together with those on the way to it; whether it is there afterwards. -/
def makeWay (p : Pathname) : Files × Bool :=
  if p.fits then fs.makeDirectories p.route.1 p.route.2 else (fs, false)

/-! ## Reading and replacing -/

def read (path : String) : Reading :=
  match (fs.locate (.ofText path)).bind fs.entry? with
  | none => .absent
  | some .directory => .unreadable
  | some (.file content) => .content content

/-- Writes a file, in place of one that may be there. -/
def write? (p : Pathname) (content : List UInt8) : Option Files :=
  (fs.locate p).bind fun place =>
    if fs.isDirectory place then none else some (fs.put place (.file content))

/-- Puts a file in place together with the directories on the way to it, unless something is in
the way. -/
def add (path : String) (content : List UInt8) : Files :=
  let p := Pathname.ofText path
  let fs := (fs.makeWay p.parent).1
  (fs.write? p content).getD fs

/-- Puts a file at another place, over one that may be there. -/
def rename? (source target : Pathname) : Option Files := do
  let source ← fs.locate source
  let target ← fs.locate target
  match fs.entry? source with
  | some (.file content) =>
    if fs.isDirectory target then none
    else some (Files.put ⟨fs.entries.erase source.key⟩ target (.file content))
  | _ => none

/-- Replaces a file by way of one with another extension; the directories on the way to it are
made. -/
def replace (path extension : String) (content : List UInt8) : Files × Option WriteFailure :=
  let target := Pathname.ofText path
  match fs.makeWay target.parent with
  | (fs, false) => (fs, some .creatingDirectory)
  | (fs, true) =>
    match fs.write? (target.beside extension) content with
    | none => (fs, some .writing)
    | some fs =>
      match fs.rename? (target.beside extension) target with
      | none => (fs, some .renaming)
      | some fs => (fs, none)

end Files

end PictureSearch.Session

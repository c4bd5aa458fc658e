import Std.Data.ExtTreeMap
import Stencil.Files.OsError
import Stencil.Files.Path

/-!
File systems, and how a path leads to a place in one.

Files, directories and symbolic links are kept by location. Paths are followed segment by segment
from the root or from the working directory; a link is replaced by its target on the way.
-/

namespace Stencil

/-- Permission bits. -/
abbrev Mode := Nat

inductive Entry where
  | file (content : ByteArray) (mode : Mode)
  | dir
  | link (target : Path)

/-- The permissions that a link shows for itself. -/
def linkMode : Mode := 0o777

/-- The permissions of an entry; a link is not followed, and those of directories are not kept. -/
def Entry.mode? : Entry → Option Mode
  | .file _ mode => some mode
  | .link _ => some linkMode
  | .dir => none

/-- The names that lead from the root to an entry. -/
abbrev Location := List String

structure FileSystem where
  /-- All entries but the root. -/
  entries : Std.ExtTreeMap Location Entry compare
  /-- The directory that relative paths start from. -/
  cwd : Location

/-- What a path leads to. -/
inductive Reached where
  | found (at_ : Location) (entry : Entry)
  /-- Nothing has the last name, but the directory exists in which it could stand. -/
  | missing (at_ : Location)

namespace FileSystem

def entry? (fs : FileSystem) (l : Location) : Option Entry :=
  if l = [] then some .dir else fs.entries[l]?

/-- Put an entry in a place. -/
def put (fs : FileSystem) (l : Location) (e : Entry) : FileSystem :=
  { fs with entries := fs.entries.insert l e }

/-- Take away what is at a place and below it. -/
def prune (fs : FileSystem) (l : Location) : FileSystem :=
  { fs with entries := fs.entries.filter fun m _ => !l.isPrefixOf m }

/-- Take away what is below a place. -/
def clear (fs : FileSystem) (l : Location) : FileSystem :=
  { fs with entries := fs.entries.filter fun m _ => !l.isPrefixOf m || m == l }

/-- The entries at a place and below it, each directory before what is in it. -/
def below (fs : FileSystem) (l : Location) : List (Location × Entry) :=
  fs.entries.toList.filter fun e => l.isPrefixOf e.1

/-- The names in a directory with their entries, in the order of the names. -/
def children (fs : FileSystem) (l : Location) : List (String × Entry) :=
  fs.entries.toList.filterMap fun e =>
    match e.1.getLast? with
    | some name => if e.1.dropLast = l then some (name, e.2) else none
    | none => none

/-- The bytes that a name may have. -/
def nameLimit : Nat := 255

/-- The bytes that a path must stay below. -/
def pathLimit : Nat := 4096

/-- The links that may be followed on one way. -/
def linkLimit : Nat := 40

/-- Follow segments from the directory `d`. Links on the way, and at its end if `follow` says so,
are passed to `onLink` with the segments that are left. -/
def walkSegments (fs : FileSystem) (follow : Bool)
    (onLink : Location → Path → List String → Except OsError Reached) :
    Location → List String → Except OsError Reached
  | d, [] => .ok (.found d .dir)
  | d, s :: rest =>
    if Path.isIdle s then walkSegments fs follow onLink d rest
    else if s = ".." then walkSegments fs follow onLink d.dropLast rest
    else if nameLimit < s.utf8ByteSize then .error .nameTooLong
    else
      let l := d ++ [s]
      match fs.entry? l with
      | none => if rest.all (· = "") then .ok (.missing l) else .error .notFound
      | some .dir => walkSegments fs follow onLink l rest
      | some (.file content mode) =>
        if rest = [] then .ok (.found l (.file content mode)) else .error .notDirectory
      | some (.link target) =>
        if rest = [] ∧ !follow then .ok (.found l (.link target)) else onLink d target rest

/-- The directory that a path starts from, seen from the directory `d`. -/
def origin (d : Location) (p : Path) : Location := if p.isAbsolute then [] else d

/-- Follow segments and at most so many links. -/
def walk (fs : FileSystem) (follow : Bool) : Nat → Location → List String → Except OsError Reached
  | 0, d, segments => walkSegments fs follow (fun _ _ _ => .error .tooManyLinks) d segments
  | links + 1, d, segments =>
    walkSegments fs follow
      (fun d target rest => walk fs follow links (origin d target) (target.segments ++ rest))
      d segments

/-- Whether the text of a path can be one. -/
def checkText (p : Path) : Except OsError Unit :=
  if p.text.toList.contains '\x00' then .error .nulInPath
  else if p = Path.empty then .error .notFound
  else if pathLimit ≤ p.text.utf8ByteSize then .error .nameTooLong
  else .ok ()

/-- What a path leads to; `follow` says whether a link at its end is followed. -/
def locate (fs : FileSystem) (follow : Bool) (p : Path) : Except OsError Reached := do
  checkText p
  fs.walk follow linkLimit (origin fs.cwd p) p.segments

/-- The place and the entry that a path leads to, which must exist. -/
def lookup (fs : FileSystem) (follow : Bool) (p : Path) : Except OsError (Location × Entry) := do
  match ← fs.locate follow p with
  | .found l e => .ok (l, e)
  | .missing _ => .error .notFound

/-- Whether a path leads to something. -/
def pathExists (fs : FileSystem) (p : Path) : Bool :=
  match fs.lookup true p with
  | .ok _ => true
  | .error _ => false

/-- Whether a path leads to a directory. -/
def isDir (fs : FileSystem) (p : Path) : Bool :=
  match fs.lookup true p with
  | .ok (_, .dir) => true
  | _ => false

end FileSystem

end Stencil

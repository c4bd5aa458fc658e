import Stencil.Files.FileSystem

/-!
Reading, writing and removing files and directories.
-/

namespace Stencil.FileSystem

/-- What an operation comes to, and the file system after it. -/
abbrev Result (α : Type) := Except OsError α × FileSystem

/-- The bytes of a file. -/
def readFile (fs : FileSystem) (p : Path) : Except OsError ByteArray :=
  match fs.lookup true p with
  | .ok (_, .file content _) => .ok content
  | .ok _ => .error .isDirectory
  | .error e => .error e

/-- The text of a file, which must be UTF-8. -/
def readText (fs : FileSystem) (p : Path) : Except OsError String :=
  match fs.readFile p with
  | .error e => .error e
  | .ok content =>
    match String.fromUTF8? content with
    | none => .error .notText
    | some text => .ok text

/-- The names in a directory with their entries, in the order of the names. -/
def listDir (fs : FileSystem) (p : Path) : Except OsError (List (String × Entry)) :=
  match fs.lookup true p with
  | .ok (l, .dir) => .ok (fs.children l)
  | .ok _ => .error .notDirectory
  | .error e => .error e

/-- The permissions of a new file. -/
def newFileMode : Mode := 0o644

/-- Whether a path ends in a slash. -/
def endsInSlash (p : Path) : Bool := p.segments.getLast? == some ""

/-- The segments of the directory that the last name of a path stands in. -/
def segmentsAround (p : Path) : List String :=
  (p.segments.reverse.dropWhile (· = "")).reverse.dropLast ++ ["."]

/-- The place for a file to be opened for writing, and the entry that is there already. Only a
directory can be meant by a path that ends in a slash. -/
def openForWriting (fs : FileSystem) (p : Path) : Except OsError (Location × Option Entry) := do
  if endsInSlash p ∧ p ≠ Path.empty then
    checkText p
    let _ ← fs.walk true linkLimit (origin fs.cwd p) (segmentsAround p)
    .error .isDirectory
  else
    match ← fs.locate true p with
    | .found _ .dir => .error .isDirectory
    | .found l e => .ok (l, some e)
    | .missing l => .ok (l, none)

/-- Write a file, which keeps its permissions if it exists. -/
def writeFile (fs : FileSystem) (p : Path) (content : ByteArray) : Result Unit :=
  match fs.openForWriting p with
  | .error e => (.error e, fs)
  | .ok (l, some (.file _ mode)) => (.ok (), fs.put l (.file content mode))
  | .ok (l, _) => (.ok (), fs.put l (.file content newFileMode))

/-- Open a file to write at its end, which makes it if there is none. -/
def openLog (fs : FileSystem) (p : Path) : Result Unit :=
  match fs.openForWriting p with
  | .error e => (.error e, fs)
  | .ok (_, some _) => (.ok (), fs)
  | .ok (l, none) => (.ok (), fs.put l (.file .empty newFileMode))

/-- Set the permissions of a file; those of directories are not kept. -/
def setMode (fs : FileSystem) (p : Path) (mode : Mode) : Result Unit :=
  match fs.lookup true p with
  | .error e => (.error e, fs)
  | .ok (l, .file content _) => (.ok (), fs.put l (.file content mode))
  | .ok _ => (.ok (), fs)

/-- Make one directory. The path must not lead to anything yet, and the directory before its last
segment must exist. -/
def makeDir (fs : FileSystem) (p : Path) : Result Unit :=
  let named := p.segments.reverse.dropWhile (· = "")
  match named with
  | [] => (.error (if p = Path.empty then .notFound else .alreadyExists), fs)
  | last :: _ =>
    if last = "." ∨ last = ".." then
      match fs.lookup true p with
      | .error e => (.error e, fs)
      | .ok _ => (.error .alreadyExists, fs)
    else
      match checkText p with
      | .error e => (.error e, fs)
      | .ok () =>
        match fs.locate false ⟨named.reverse⟩ with
        | .error e => (.error e, fs)
        | .ok (.found _ _) => (.error .alreadyExists, fs)
        | .ok (.missing l) => (.ok (), fs.put l .dir)

/-- Make one directory, unless the path leads to one. -/
def ensureDir (fs : FileSystem) (p : Path) : Result Unit :=
  match fs.makeDir p with
  | (.error e, fs) => if fs.isDir p then (.ok (), fs) else (.error e, fs)
  | done => done

/-- Make a directory and the directories on the way to it, as far up as they are missing. What was
made stays if a later one cannot be made. -/
def makeDirs (fs : FileSystem) : (depth : Nat) → Path → Result Unit
  | 0, p => fs.ensureDir p
  | depth + 1, p =>
    if p = Path.empty then (.ok (), fs)
    else
      match fs.makeDir p with
      | (.error .notFound, fs) =>
        match p.parent? with
        | none => (.error .notFound, fs)
        | some parent =>
          match fs.makeDirs depth parent with
          | (.error e, fs) => (.error e, fs)
          | (.ok (), fs) => fs.ensureDir p
      | (.error e, fs) => if fs.isDir p then (.ok (), fs) else (.error e, fs)
      | done => done

/-- Make a directory and all that are missing on the way to it. -/
def createDirAll (fs : FileSystem) (p : Path) : Result Unit :=
  fs.makeDirs (p.segments.length + 1) p

/-- Remove a directory that is empty. A link is not removed, whether or not the path ends in a slash,
and a directory cannot be removed by a path that ends in a full stop. -/
def removeDir (fs : FileSystem) (p : Path) : Result Unit :=
  match p.segments.reverse.dropWhile (· = "") with
  | [] => (.error .invalidArgument, fs)
  | last :: before =>
    if last = "." ∨ last = ".." then
      match fs.lookup true p with
      | .error e => (.error e, fs)
      | .ok _ => (.error (if last = "." then .invalidArgument else .notEmpty), fs)
    else
      match fs.lookup false ⟨(last :: before).reverse⟩ with
      | .error e => (.error e, fs)
      | .ok (l, .dir) =>
        if (fs.children l).isEmpty then (.ok (), fs.prune l) else (.error .notEmpty, fs)
      | .ok _ => (.error .notDirectory, fs)

/-- Remove a directory with all that is in it, or only the link if the path leads to one. The path is
followed again once the directory is empty. If it has led through the directory itself then it leads
nowhere any more, and the directory stays. -/
def removeDirAll (fs : FileSystem) (p : Path) : Result Unit :=
  match fs.lookup false p with
  | .error e => (.error e, fs)
  | .ok (l, .link _) => (.ok (), fs.prune l)
  | .ok (_, .file _ _) => (.error .notDirectory, fs)
  | .ok (l, .dir) =>
    match (fs.clear l).removeDir p with
    | (.error .notFound, fs) => (.ok (), fs)
    | done => done

end Stencil.FileSystem

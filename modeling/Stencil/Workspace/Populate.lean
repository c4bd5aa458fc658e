import Stencil.Diagnostic
import Stencil.Files.Operations
import Stencil.Placeholder
import Stencil.Resolution.Session
import Stencil.Workspace.Error

/-!
The workspace: the directory that receives the copies of the template folders.

Folders are copied in order, and in each folder the names in their order, every directory before
what is in it. Placeholders are replaced in names and in the contents of files that are texts; all
other files are copied as they are. A placeholder without a value stays and gives a warning.
-/

namespace Stencil

structure Workspace where
  root : Path
deriving DecidableEq, Repr

/-- The state of a copy. -/
structure Output where
  files : FileSystem
  /-- The files written, the last one first. -/
  written : List Path
  /-- The warnings given, the last one first. -/
  warnings : List Diagnostic

/-- What a part of a copy comes to, and the state after it. -/
abbrev Copied (α : Type) := Except WorkspaceError α × Output

namespace Output

def ofFiles (fs : FileSystem) : Output := ⟨fs, [], []⟩

/-- Carry out an operation on a path. -/
def perform {α : Type} (out : Output) (action : FileAction) (p : Path)
    (operation : FileSystem → FileSystem.Result α) : Copied α :=
  match operation out.files with
  | (.ok a, files) => (.ok a, { out with files })
  | (.error e, files) => (.error (.io action p e), { out with files })

/-- Replace the placeholders of a text that comes from `origin`. -/
def fill (out : Output) (values : Bindings) (origin : Path) (text : String) : String × Output :=
  let unknown := (Placeholder.references text).filter fun name => !values.contains name
  let warning := fun name => (⟨.warn, "unknown key token '" ++ Placeholder.token name ++
    "' left in place in '" ++ origin.text ++ "'"⟩ : Diagnostic)
  (Placeholder.substitute (values[·]?) text,
    { out with warnings := (unknown.map warning).reverse ++ out.warnings })

end Output

namespace Workspace

/-- The path of a name that cannot lead out of the directory it is put into. -/
def contained (name : String) : Except WorkspaceError Path :=
  let p := Path.ofText name
  if p.staysBelow then .ok p else .error (.unsafeTarget p)

/-- Empty the workspace, and make it if there is none. -/
def prepare (w : Workspace) (fs : FileSystem) : Except WorkspaceError Unit × FileSystem :=
  let (result, out) :=
    if fs.pathExists w.root then
      match (Output.ofFiles fs).perform .clean w.root (·.removeDirAll w.root) with
      | (.error e, out) => (.error e, out)
      | (.ok (), out) => out.perform .create w.root (·.createDirAll w.root)
    else (Output.ofFiles fs).perform .create w.root (·.createDirAll w.root)
  (result, out.files)

/-- Fail if the target of a folder lies outside the workspace. -/
def checkFolders (folders : List ResolvedFolder) : Except WorkspaceError Unit :=
  folders.forM fun f => do let _ ← contained f.target

/-- The place for the names of an entry below the target directory. -/
def destination (values : Bindings) (origin : Path) : Path → List String → Output → Copied Path
  | target, [], out => (.ok target, out)
  | target, name :: names, out =>
    let (name, out) := out.fill values origin name
    match contained name with
    | .error e => (.error e, out)
    | .ok p => destination values origin (target.join p) names out

/-- The content of a copy: a text has its placeholders replaced. -/
def copiedContent (values : Bindings) (origin : Path) (content : ByteArray) (out : Output) :
    ByteArray × Output :=
  match String.fromUTF8? content with
  | none => (content, out)
  | some text =>
    let (text, out) := out.fill values origin text
    (text.toUTF8, out)

/-- The permissions that an entry has, unless it has gone; a link is not followed. -/
def modeOf? (fs : FileSystem) (p : Path) : Option Mode :=
  match fs.lookup false p with
  | .ok (_, entry) => entry.mode?
  | .error _ => none

/-- Copy one file; the copy gets the permissions that stand in the directory. -/
def copyFile (values : Bindings) (origin dest : Path) (out : Output) : Copied Unit :=
  match out.files.readFile origin with
  | .error e => (.error (.io .read origin e), out)
  | .ok content =>
    let (content, out) := copiedContent values origin content out
    match out.perform .write dest (·.writeFile dest content) with
    | (.error e, out) => (.error e, out)
    | (.ok (), out) =>
      match modeOf? out.files origin with
      | none => (.ok (), { out with written := dest :: out.written })
      | some mode =>
        match out.perform .setPermissions dest (·.setMode dest mode) with
        | (.error e, out) => (.error e, out)
        | (.ok (), out) => (.ok (), { out with written := dest :: out.written })

/-- A folder that is being copied. -/
structure Job where
  values : Bindings
  source : Path
  target : Path

/-- How the entries of a directory are copied: given the directory, the names that lead to it from
the source, and what was in it when it was opened. -/
abbrev CopyDir := Path → List String → Except OsError (List (String × Entry)) → Output → Copied Unit

/-- Copy one entry. A directory is opened before its copy is made. -/
def copyEntry (job : Job) (inner : CopyDir) (directory : Path) (names : List String)
    (name : String) (entry : Entry) (out : Output) : Copied Unit :=
  let origin := directory.join ⟨[name]⟩
  let names := names ++ [name]
  let opened := out.files.listDir origin
  match destination job.values origin job.target names out with
  | (.error e, out) => (.error e, out)
  | (.ok dest, out) =>
    match entry with
    | .dir =>
      match out.perform .create dest (·.createDirAll dest) with
      | (.error e, out) => (.error e, out)
      | (.ok (), out) => inner origin names opened out
    | _ => copyFile job.values origin dest out

/-- Copy the entries of a list, up to the first failure. -/
def copyEntries (job : Job) (inner : CopyDir) (directory : Path) (names : List String) :
    List (String × Entry) → Output → Copied Unit
  | [], out => (.ok (), out)
  | (name, entry) :: rest, out =>
    match copyEntry job inner directory names name entry out with
    | (.error e, out) => (.error e, out)
    | (.ok (), out) => copyEntries job inner directory names rest out

/-- Copy a directory in which directories are nested at most so deep. -/
def copyDir (job : Job) : (depth : Nat) → CopyDir
  | 0, directory, _, _, out => (.error (.walk job.source directory .nameTooLong), out)
  | depth + 1, directory, names, opened, out =>
    match opened with
    | .error e => (.error (.walk job.source directory e), out)
    | .ok entries => copyEntries job (copyDir job depth) directory names entries out

/-- Copy one folder to its target in the workspace. The path of a directory that is deeper than
paths can be long cannot be opened, which bounds the depth. -/
def copyFolder (w : Workspace) (sourceRoot : Path) (values : Bindings) (f : ResolvedFolder)
    (out : Output) : Copied Unit :=
  let source := sourceRoot.join (Path.ofText f.source)
  if out.files.isDir source then
    let target := w.root.join (Path.ofText f.target)
    match out.perform .create target (·.createDirAll target) with
    | (.error e, out) => (.error e, out)
    | (.ok (), out) =>
      copyDir ⟨values, source, target⟩ FileSystem.pathLimit source [] (out.files.listDir source) out
  else (.error (.missingSource source), out)

def copyFolders (w : Workspace) (sourceRoot : Path) (values : Bindings) :
    List ResolvedFolder → Output → Copied Unit
  | [], out => (.ok (), out)
  | f :: fs, out =>
    match w.copyFolder sourceRoot values f out with
    | (.error e, out) => (.error e, out)
    | (.ok (), out) => w.copyFolders sourceRoot values fs out

/-- What filling the workspace came to: the files written in order, or why not all of them were. -/
structure Populated where
  result : Except WorkspaceError (List Path)
  files : FileSystem
  warnings : List Diagnostic

/-- Copy all folders into the workspace. Nothing is written if a target lies outside it. -/
def populate (w : Workspace) (sourceRoot : Path) (folders : List ResolvedFolder)
    (values : Bindings) (fs : FileSystem) : Populated :=
  match checkFolders folders with
  | .error e => ⟨.error e, fs, []⟩
  | .ok () =>
    let (result, out) := w.copyFolders sourceRoot values folders (.ofFiles fs)
    ⟨result.map fun _ => out.written.reverse, out.files, out.warnings.reverse⟩

end Workspace

end Stencil

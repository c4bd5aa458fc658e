import Stencil.CommandLine.Identifier
import Stencil.CommandLine.Run

/-!
The program.

The parts of the disk that a run can reach are read before it, and what it changed is written after
it. The permissions of files cannot be read, so that all files count as new ones.
-/

namespace Stencil.Disk

open CommandLine

/-- The target of a link that leads nowhere. -/
def nowhere : Path := ⟨["", "\x00", ""]⟩

/-- What stands in a place. -/
def entryAt? (l : Location) : IO (Option Entry) := do
  let root ← IO.FS.realPath "/"
  let place := l.foldl (fun d name => d / name) root
  let info? : Option IO.FS.Metadata ← try pure (some (← place.symlinkMetadata)) catch _ => pure none
  match info?.map IO.FS.Metadata.type with
  | none => return none
  | some .dir => return some .dir
  | some .file => return some (.file (← IO.FS.readBinFile place) FileSystem.newFileMode)
  | some .other => return some (.file .empty FileSystem.newFileMode)
  | some .symlink =>
    let target? ← try pure (some (← IO.FS.realPath place)) catch _ => pure none
    return some (.link ((target?.map fun t => Path.ofText t.toString).getD nowhere))

/-- Read what the segments lead to from a directory, and all that is on the way. -/
partial def follow (fs : FileSystem) (d : Location) : List String → IO FileSystem
  | [] => return fs
  | s :: rest => do
    if Path.isIdle s then follow fs d rest
    else if s = ".." then follow fs d.dropLast rest
    else
      let l := d ++ [s]
      match ← entryAt? l with
      | none => return fs
      | some (.link target) =>
        follow (fs.put l (.link target)) (FileSystem.origin d target) (target.segments ++ rest)
      | some .dir => follow (fs.put l .dir) l rest
      | some e => return fs.put l e

/-- Read what a path leads to. -/
def observe (fs : FileSystem) (p : Path) : IO FileSystem :=
  follow fs (FileSystem.origin fs.cwd p) p.segments

/-- Read all that is below a directory. -/
partial def observeBelow (fs : FileSystem) (l : Location) : IO FileSystem := do
  let root ← IO.FS.realPath "/"
  let place := l.foldl (fun d name => d / name) root
  let mut fs := fs
  for entry in ← place.readDir do
    let m := l ++ [entry.fileName]
    fs ← follow fs l [entry.fileName]
    if let some .dir := fs.entry? m then fs ← observeBelow fs m
  return fs

/-- Read what a path leads to, and all that is below it. -/
def observeTree (fs : FileSystem) (p : Path) : IO FileSystem := do
  let fs ← observe fs p
  match fs.lookup true p with
  | .ok (l, .dir) => observeBelow fs l
  | _ => return fs

/-- The disk as far as the options lead to it. -/
def observeOptions (fs : FileSystem) (o : Options) : IO FileSystem := do
  let mut fs := fs
  for p in [o.logFile, o.config] ++ o.answers?.toList do
    fs ← observe fs p
  observeTree fs o.workspace

def rightsOf (digit : Nat) : IO.AccessRight :=
  ⟨digit.testBit 2, digit.testBit 1, digit.testBit 0⟩

/-- Write an entry to its place. -/
def store (l : Location) (e : Entry) : IO Unit := do
  let root ← IO.FS.realPath "/"
  let place := l.foldl (fun d name => d / name) root
  match e with
  | .dir => IO.FS.createDir place
  | .file content mode =>
    IO.FS.writeBinFile place content
    if mode ≠ FileSystem.newFileMode then
      IO.setAccessRights place ⟨rightsOf (mode / 64), rightsOf (mode / 8), rightsOf mode⟩
  | .link _ => return ()

/-- Remove an entry, with nothing below it left. -/
def discard (l : Location) (e : Entry) : IO Unit := do
  let root ← IO.FS.realPath "/"
  let place := l.foldl (fun d name => d / name) root
  match e with
  | .dir => IO.FS.removeDir place
  | _ => IO.FS.removeFile place

/-- Whether an entry is still as it was. -/
def unchanged : Option Entry → Entry → Bool
  | some (.file a m), .file b n => a.data == b.data && m == n
  | some .dir, .dir => true
  | some (.link a), .link b => a == b
  | _, _ => false

/-- Make the changes on the disk that a run has made. -/
def commit (before after : FileSystem) : IO Unit := do
  for (l, e) in before.entries.toList.reverse do
    match after.entry? l, e with
    | some .dir, .dir => pure ()
    | some (.file _ _), .file _ _ => pure ()
    | some (.link _), .link _ => pure ()
    | _, _ => discard l e
  for (l, e) in after.entries.toList do
    unless unchanged (before.entry? l) e do store l e

end Stencil.Disk

namespace Stencil.CommandLine

open Dialogue

def write (text : String) : IO Unit := do
  let out ← IO.getStdout
  out.putStr text
  out.flush

/-- The next line of input, unless it has ended. -/
def nextLine : IO (Option Line) := do
  let line? ← try pure (some (← (← IO.getStdin).getLine)) catch _ => pure none
  match line? with
  | none => return some none
  | some "" => return none
  | some line => return some (Line.ofBytes line.toUTF8.toList)

/-- Hold the dialogue, reading a line whenever it cannot go on without one. Of what it writes, so
many characters have been shown. -/
partial def converse (p : Prepared) (lines : List Line) (shown : Nat) :
    IO (Except PromptError Answers) := do
  let reply := p.ask lines
  write (String.ofList (reply.output.toList.drop shown))
  match reply.result with
  | .error (.endOfInput what) =>
    match ← nextLine with
    | none => return .error (.endOfInput what)
    | some line => converse p (lines ++ [line]) reply.output.length
  | result => return result

/-- Append what a run logged to the log file, and show it if asked to. -/
def record (o : Options) (outcome : Outcome) : IO Unit := do
  let text := String.join (outcome.log.map fun d => d.display ++ "\n")
  if outcome.files.pathExists o.logFile then
    (← IO.FS.Handle.mk o.logFile.text .append).putStr text
  if o.verbose then IO.eprint text

/-- End a run: change the disk, and show what there is to show. -/
def settle (before : FileSystem) (arguments : List String) (outcome : Outcome) : IO UInt32 := do
  Disk.commit before outcome.files
  if let .ok o := Options.read arguments then record o outcome
  write outcome.output
  IO.eprint outcome.errors
  return outcome.code.toUInt32

/-- The part of a run after the dialogue, which needs the folders to be copied. -/
def conclude (p : Prepared) (arguments : List String) (a : Answers) : IO UInt32 := do
  let keys := (p.registry.templates.map (·.keys.length)).foldl max 0
  let ids := identifiersFrom (← IO.getRandomBytes (16 * (keys + 1)).toUSize).toList
  let mut files := p.files
  for source in p.sources ids a do
    files ← Disk.observeTree files source
  settle files arguments ({ p with files }.finish ids a)

end Stencil.CommandLine

open Stencil CommandLine in
def main (arguments : List String) : IO UInt32 := do
  let cwd := ((← IO.currentDir).toString.splitOn "/").filter (· ≠ "")
  let mut before : FileSystem := ⟨∅, cwd⟩
  if let .ok o := Options.read arguments then
    before ← Disk.observeOptions before o
  match prepare arguments before with
  | .error outcome => settle before arguments outcome
  | .ok p =>
    Disk.commit before p.files
    match ← converse p [] 0 with
    | .error e => settle p.files arguments (p.abandon e)
    | .ok a => conclude p arguments a

import Stencil.Files.OsError
import Stencil.Files.Path

/-!
Why a workspace cannot be filled.
-/

namespace Stencil

/-- What was being done to a path. -/
inductive FileAction where
  | clean
  | create
  | read
  | write
  | setPermissions
deriving DecidableEq, Repr

def FileAction.text : FileAction → String
  | .clean => "clean"
  | .create => "create"
  | .read => "read"
  | .write => "write"
  | .setPermissions => "set permissions on"

inductive WorkspaceError where
  | io (action : FileAction) (path : Path) (error : OsError)
  /-- A directory below the source folder cannot be listed. -/
  | walk (source directory : Path) (error : OsError)
  /-- The source of a folder is not a directory. -/
  | missingSource (path : Path)
  /-- A name would lead out of the workspace. -/
  | unsafeTarget (path : Path)
deriving DecidableEq, Repr

def WorkspaceError.message : WorkspaceError → String
  | .io action path e => "failed to " ++ action.text ++ " '" ++ path.text ++ "': " ++ e.message
  | .walk source directory e =>
    "failed to walk '" ++ source.text ++ "': IO error for operation on " ++ directory.text ++ ": " ++
      e.message
  | .missingSource path => "template folder '" ++ path.text ++ "' does not exist"
  | .unsafeTarget path => "refusing to write '" ++ path.text ++ "' outside the workspace"

end Stencil

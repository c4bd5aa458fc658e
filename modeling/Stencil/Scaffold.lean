import Stencil.Resolution.Resolve
import Stencil.Template.Registry
import Stencil.Workspace.Populate

/-!
Scaffolding: from the user's answers to a filled workspace.
-/

namespace Stencil

/-- The keys that name the folder of the templates; the second one is an older spelling. -/
def templateFolderKeys : List String := ["template_folder", "(template_folder)"]

/-- The directory that holds the template folders: the directory of the config document, or the
one that a key names as seen from there. -/
def sourceRoot (configDir : Path) (values : Bindings) : Path :=
  match templateFolderKeys.findSome? (values[·]?) with
  | some folder => configDir.join (Path.ofText folder)
  | none => configDir

inductive ScaffoldError where
  | template (error : TemplateError)
  | resolve (error : ResolveError)
  | workspace (error : WorkspaceError)

namespace ScaffoldError

def message : ScaffoldError → String
  | template e => e.message
  | resolve e => e.message
  | workspace e => e.message

def severity : ScaffoldError → Severity
  | resolve e => e.severity
  | _ => .error

end ScaffoldError

/-- Resolve the template that the answers name. -/
def Registry.resolve (r : Registry) (ids : IdSource) (a : Answers) :
    Except ScaffoldError ResolvedTemplate :=
  match a.template? with
  | none => .error (.template .notSelected)
  | some name =>
    match r.select name with
    | .error e => .error (.template e)
    | .ok t => (t.resolve ids a).mapError .resolve

/-- What scaffolding came to: the resolved template with the files written, or why it failed. -/
structure Scaffolded where
  result : Except ScaffoldError (ResolvedTemplate × List Path)
  files : FileSystem
  warnings : List Diagnostic

/-- Resolve the chosen template, empty the workspace and copy the folders into it. The workspace is
left alone if the template cannot be resolved or a target lies outside the workspace. -/
def scaffold (r : Registry) (ids : IdSource) (a : Answers) (configDir : Path) (w : Workspace)
    (fs : FileSystem) : Scaffolded :=
  match r.resolve ids a with
  | .error e => ⟨.error e, fs, []⟩
  | .ok resolved =>
    match Workspace.checkFolders resolved.folders with
    | .error e => ⟨.error (.workspace e), fs, []⟩
    | .ok () =>
      match w.prepare fs with
      | (.error e, fs) => ⟨.error (.workspace e), fs, []⟩
      | (.ok (), fs) =>
        let source := sourceRoot configDir resolved.values
        let populated := w.populate source resolved.folders resolved.values fs
        ⟨(populated.result.map fun written => (resolved, written)).mapError .workspace,
          populated.files, populated.warnings⟩

end Stencil

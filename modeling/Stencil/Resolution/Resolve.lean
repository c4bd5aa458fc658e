import Stencil.Answers.Basic
import Stencil.Resolution.Session

/-!
Resolving a template from the user's answers.
-/

namespace Stencil

/-- Everything that the output of a template depends on. -/
structure ResolvedTemplate where
  template : String
  values : Bindings
  folders : List ResolvedFolder

/-- A whole session: the inputs, the chosen cases, all keys, and then the folders. -/
def Template.resolve (t : Template) (ids : IdSource) (a : Answers) :
    Except ResolveError ResolvedTemplate :=
  match ((Session.start t).absorbInputs a.inputs).applyCases a.cases.toList with
  | (.error e, _) => .error e
  | (.ok _, s) =>
    match s.resolveAll ids a.inputs with
    | (.error e, _) => .error e
    | (.ok _, s) =>
      match s.resolveFolders ids with
      | (.error e, _) => .error e
      | (.ok folders, s) => .ok ⟨t.name, s.values, folders⟩

end Stencil

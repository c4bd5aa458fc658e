import Stencil.Markup.Document
import Stencil.Template.Registry
import Stencil.Template.Validation

/-!
Loading a config document.
-/

namespace Stencil.Config

/-- The first layer at which loading fails. -/
inductive LoadError where
  | parse (error : Markup.SyntaxError)
  | invalid (problems : List Problem)
  | template (error : TemplateError)

def LoadError.message : LoadError → String
  | .parse e => "parse errors: " ++ e.message
  | .invalid problems => "invalid config: " ++ "; ".intercalate (problems.map Problem.message)
  | .template e => e.message

/-- Parse a document, check it, and register its templates. -/
def load (source : String) : Except LoadError Registry :=
  match Markup.Document.parse source with
  | .error e => .error (.parse e)
  | .ok d =>
    match d.problems with
    | [] =>
      match Registry.ofDocument d with
      | .error e => .error (.template e)
      | .ok r => .ok r
    | problems => .error (.invalid problems)

end Stencil.Config

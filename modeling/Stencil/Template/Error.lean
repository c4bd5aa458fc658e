/-!
What can be wrong with a choice or a definition of templates.
-/

namespace Stencil

inductive TemplateError where
  /-- No template has that name. -/
  | notFound (name : String)
  /-- No template was chosen. -/
  | notSelected
  /-- A template of that name is registered already. -/
  | duplicate (name : String)
  /-- An element lacks an attribute that its definition needs. -/
  | missingAttribute (tag attr : String)
deriving DecidableEq, Repr

def TemplateError.message : TemplateError → String
  | .notFound name => "template not found: " ++ name
  | .notSelected => "no template selected"
  | .duplicate name => "duplicate template definition: " ++ name
  | .missingAttribute tag attr => "tag '" ++ tag ++ "' is missing the attribute '" ++ attr ++ "'"

end Stencil

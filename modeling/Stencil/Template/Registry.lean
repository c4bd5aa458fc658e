import Stencil.Template.Definition

/-!
The registry of the templates of a config document.
-/

namespace Stencil

structure Registry where
  /-- The templates in the order of their registration. -/
  templates : List Template

namespace Registry

def empty : Registry := ⟨[]⟩

def names (r : Registry) : List String := r.templates.map (·.name)

/-- The names of the templates with what they are for. -/
def descriptions (r : Registry) : List (String × String) :=
  r.templates.map fun t => (t.name, t.description)

def contains (r : Registry) (name : String) : Bool := r.templates.any (·.name = name)

def get? (r : Registry) (name : String) : Option Template := r.templates.find? (·.name = name)

/-- The template of that name, which must exist. -/
def select (r : Registry) (name : String) : Except TemplateError Template :=
  match r.get? name with
  | some t => .ok t
  | none => .error (.notFound name)

/-- Add a template at the end; its name must be new. -/
def register (r : Registry) (t : Template) : Except TemplateError Registry :=
  if r.contains t.name then .error (.duplicate t.name) else .ok ⟨r.templates ++ [t]⟩

def registerAll (r : Registry) (ts : List Template) : Except TemplateError Registry :=
  ts.foldlM register r

/-- Read and register the templates of a document one after the other. -/
def ofDocument (d : Markup.Document) : Except TemplateError Registry :=
  d.templates.foldlM (fun r e => do r.register (← Template.ofElement e)) empty

end Registry

end Stencil

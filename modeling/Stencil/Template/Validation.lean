import Stencil.Template.Definition

/-!
The checks that a config document has to pass.

All problems of a document are reported at once: first the missing attributes, element by element
in document order, then, template by template, names that were taken before.
-/

namespace Stencil

open Markup

inductive Problem where
  | missingAttribute (tag attr : String) (span : Span)
  | duplicateTemplate (name : String) (span : Span)
  | duplicateKey (template name : String) (span : Span)
  | noTemplates (span : Span)
deriving DecidableEq, Repr

namespace Problem

def message : Problem → String
  | missingAttribute tag attr _ => "tag '" ++ tag ++ "' doesn't have an attribute '" ++ attr ++ "'"
  | duplicateTemplate name _ => "template '" ++ name ++ "' is defined more than once"
  | duplicateKey template name _ =>
    "key '" ++ name ++ "' is defined more than once in template '" ++ template ++ "'"
  | noTemplates _ => "the document does not define any template"

/-- The place in the document that the problem is about. -/
def span : Problem → Span
  | missingAttribute _ _ span => span
  | duplicateTemplate _ span => span
  | duplicateKey _ _ span => span
  | noTemplates span => span

end Problem

/-- The attributes that every element of the tag must have. Other tags are accepted as they are. -/
def requiredByTag (tag : String) : List String :=
  match tag with
  | "template" => ["name", "desc"]
  | "folder" => ["name", "rename"]
  | "key" => ["name", "type"]
  | "switch" => ["name", "type"]
  | "case" => ["name"]
  | _ => []

namespace Markup.Element

/-- The attributes that this element must have because of its type. Keys of an unknown type need
none. -/
def requiredByType (e : Element) : List String :=
  match e.tag with
  | "key" => (((e.attr? "type").bind KeyKind.ofTag?).map KeyKind.requiredAttributes).getD []
  | "switch" => if e.attr? "type" = some "input" then ["prompt"] else []
  | _ => []

/-- The attributes that this element should have and lacks. -/
def lacking (e : Element) : List String :=
  (requiredByTag e.tag ++ e.requiredByType).filter fun attr => !e.hasAttr attr

def problems (e : Element) : List Problem :=
  e.lacking.map fun attr => .missingAttribute e.tag attr e.name.span

end Markup.Element

/-- The keys among `keys` whose name occurs earlier, or in `seen`. -/
def repeatedKeys (template : String) (seen : List String) : List Element → List Problem
  | [] => []
  | key :: keys =>
    match key.attr? "name" with
    | none => repeatedKeys template seen keys
    | some name =>
      if name ∈ seen then .duplicateKey template name key.span :: repeatedKeys template seen keys
      else repeatedKeys template (name :: seen) keys

/-- The repeated names of templates, and of keys in each of them. Templates without a name are
passed over. -/
def repeatedNames (seen : List String) : List Element → List Problem
  | [] => []
  | t :: ts =>
    match t.attr? "name" with
    | none => repeatedNames seen ts
    | some name =>
      (if name ∈ seen then [.duplicateTemplate name t.name.span] else []) ++
        repeatedKeys name [] t.ownKeys ++ repeatedNames (name :: seen) ts

namespace Markup.Document

/-- All elements of a document, in order. -/
def elements (d : Document) : List Element := d.root :: d.root.descendants

/-- Everything that is wrong with a document. -/
def problems (d : Document) : List Problem :=
  d.elements.flatMap Element.problems ++
    if d.templates = [] then [.noTemplates d.root.name.span] else repeatedNames [] d.templates

end Markup.Document

end Stencil

import Std.Data.ExtTreeMap
import Stencil.Text.Span

/-!
The element tree of a config document.
-/

namespace Stencil

/-- Texts by name, listed in the order of their names. -/
abbrev Bindings := Std.ExtTreeMap String String compare

namespace Markup

/-- A `name="value"` pair of a start tag. -/
structure Attribute where
  name : Located String
  value : Located String
deriving DecidableEq, Repr, Inhabited

/-- An element with the place of the whole of it, from its `<` to its last `>`. -/
inductive Element where
  | mk (name : Located String) (attributes : List Attribute) (children : List Element)
    (span : Span)
deriving Repr, Inhabited

namespace Element

def name : Element → Located String
  | mk name _ _ _ => name

def attributes : Element → List Attribute
  | mk _ attributes _ _ => attributes

def children : Element → List Element
  | mk _ _ children _ => children

def span : Element → Span
  | mk _ _ _ span => span

def tag (e : Element) : String := e.name.value

/-- The first attribute of that name. -/
def attribute? (e : Element) (name : String) : Option Attribute :=
  e.attributes.find? (·.name.value = name)

/-- The value of the first attribute of that name. -/
def attr? (e : Element) (name : String) : Option String :=
  (e.attribute? name).map (·.value.value)

def hasAttr (e : Element) (name : String) : Bool := (e.attribute? name).isSome

/-- All attributes by name; of several with one name the last counts. -/
def attributeMap (e : Element) : Bindings :=
  .ofList (e.attributes.map fun a => (a.name.value, a.value.value)) compare

mutual

/-- All elements below this one, in document order. -/
def descendants : Element → List Element
  | mk _ _ children _ => withDescendants children

/-- The elements of a list, each followed by all elements below it. -/
def withDescendants : List Element → List Element
  | [] => []
  | e :: es => e :: (descendants e ++ withDescendants es)

end

/-- The elements below this one that have the tag, in document order. -/
def descendantsNamed (e : Element) (tag : String) : List Element :=
  e.descendants.filter (·.tag = tag)

end Element

/-- A config document has one outermost element. -/
structure Document where
  root : Element
deriving Repr, Inhabited

/-- The template elements of a document: the root if it is one, else all below it. -/
def Document.templates (d : Document) : List Element :=
  if d.root.tag = "template" then [d.root] else d.root.descendantsNamed "template"

end Markup

end Stencil

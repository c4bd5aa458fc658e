import Stencil.Markup.Element
import Stencil.Template.KeyKind

/-!
Templates: keys with their rules, switches whose cases set keys, and folders to copy.
-/

namespace Stencil

/-- A named value and the attributes it is made from. -/
structure Key where
  name : String
  /-- The `type` attribute as written; it need not be the tag of a kind. -/
  typeTag : String
  /-- All attributes except `name` and `type`. -/
  attributes : Bindings

namespace Key

def attr? (k : Key) (name : String) : Option String := k.attributes[name]?

def kind? (k : Key) : Option KeyKind := KeyKind.ofTag? k.typeTag

end Key

/-- A choice of a switch, with the keys that it sets. -/
structure Case where
  name : String
  overrides : List Key

structure Switch where
  name : String
  typeTag : String
  prompt? : Option String
  cases : List Case

namespace Switch

/-- The first case of that name. -/
def case? (s : Switch) (name : String) : Option Case := s.cases.find? (·.name = name)

def caseNames (s : Switch) : List String := s.cases.map (·.name)

end Switch

/-- A source folder and the format of the name under which it is copied. -/
structure Folder where
  source : String
  rename : String

structure Template where
  name : String
  description : String
  /-- The keys, without those that cases set. -/
  keys : List Key
  switches : List Switch
  folders : List Folder

namespace Template

/-- The keys whose type is the tag of `kind`, in order. -/
def keysOfKind (t : Template) (kind : KeyKind) : List Key :=
  t.keys.filter (·.typeTag = kind.tag)

/-- The first key of that name. -/
def key? (t : Template) (name : String) : Option Key := t.keys.find? (·.name = name)

/-- The first switch of that name. -/
def switch? (t : Template) (name : String) : Option Switch := t.switches.find? (·.name = name)

def switchesOfType (t : Template) (tag : String) : List Switch :=
  t.switches.filter (·.typeTag = tag)

theorem name_of_key? {t : Template} {name : String} {k : Key} (h : t.key? name = some k) :
    k.name = name := by
  simpa using List.find?_some h

theorem mem_keys_of_key? {t : Template} {name : String} {k : Key} (h : t.key? name = some k) :
    k ∈ t.keys :=
  List.mem_of_find?_eq_some h

end Template

end Stencil

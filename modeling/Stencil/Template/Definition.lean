import Stencil.Template.Basic
import Stencil.Template.Error

/-!
Reading templates from their elements.
-/

namespace Stencil

open Markup

namespace Markup.Element

mutual

/-- The key elements below this one that lie in no switch and in no other key. -/
def ownKeys : Element → List Element
  | mk _ _ children _ => ownKeysOf children

/-- The key elements of a list, those below other elements than switches and keys included. -/
def ownKeysOf : List Element → List Element
  | [] => []
  | e :: es =>
    (if e.tag = "switch" then [] else if e.tag = "key" then [e] else ownKeys e) ++ ownKeysOf es

end

/-- The value of an attribute that the definition needs. -/
def need (e : Element) (attr : String) : Except TemplateError String :=
  match e.attr? attr with
  | some value => .ok value
  | none => .error (.missingAttribute e.tag attr)

end Markup.Element

/-- The key that an element defines, if it has a name and a type. -/
def Key.ofElement? (e : Element) : Option Key :=
  match e.attr? "name", e.attr? "type" with
  | some name, some typeTag =>
    some ⟨name, typeTag, (e.attributeMap.erase "name").erase "type"⟩
  | _, _ => none

def Key.ofElement (e : Element) : Except TemplateError Key :=
  match Key.ofElement? e with
  | some key => .ok key
  | none => .error (.missingAttribute "key" (if e.hasAttr "name" then "type" else "name"))

/-- A case sets every key below it, at any depth. -/
def Case.ofElement (e : Element) : Except TemplateError Case := do
  let name ← e.need "name"
  let overrides ← (e.descendantsNamed "key").mapM Key.ofElement
  return ⟨name, overrides⟩

/-- A switch has every case below it, at any depth. -/
def Switch.ofElement (e : Element) : Except TemplateError Switch := do
  let name ← e.need "name"
  let typeTag ← e.need "type"
  let cases ← (e.descendantsNamed "case").mapM Case.ofElement
  return ⟨name, typeTag, e.attr? "prompt", cases⟩

def Folder.ofElement (e : Element) : Except TemplateError Folder := do
  let source ← e.need "name"
  let rename ← e.need "rename"
  return ⟨source, rename⟩

/-- A template has the keys that lie in no switch, and every switch and folder below it. -/
def Template.ofElement (e : Element) : Except TemplateError Template := do
  let name ← e.need "name"
  let keys ← e.ownKeys.mapM Key.ofElement
  let switches ← (e.descendantsNamed "switch").mapM Switch.ofElement
  let folders ← (e.descendantsNamed "folder").mapM Folder.ofElement
  return ⟨name, (e.attr? "desc").getD "", keys, switches, folders⟩

end Stencil

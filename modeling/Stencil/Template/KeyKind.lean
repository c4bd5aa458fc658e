/-!
The kinds of keys.
-/

namespace Stencil

/-- How a key comes to its value. -/
inductive KeyKind where
  /-- A constant. -/
  | value
  /-- A fresh identifier. -/
  | uuid
  /-- A format in lower case. -/
  | lowercase
  /-- A format in upper case. -/
  | uppercase
  /-- A format with one text replaced by another. -/
  | replace
  /-- A format with a backslash before each occurrence of a text. -/
  | escape
  /-- A format as it is. -/
  | concatenate
  /-- The user's answer. -/
  | input
deriving DecidableEq, Repr, Inhabited

namespace KeyKind

def all : List KeyKind :=
  [.value, .uuid, .lowercase, .uppercase, .replace, .escape, .concatenate, .input]

/-- The kinds that are computed, in the order in which this is done. -/
def computed : List KeyKind :=
  [.value, .uuid, .lowercase, .uppercase, .replace, .escape, .concatenate]

/-- The kind as it is written in a `type` attribute. -/
def tag : KeyKind → String
  | .value => "value"
  | .uuid => "uuid"
  | .lowercase => "lowercase"
  | .uppercase => "uppercase"
  | .replace => "replace"
  | .escape => "escape"
  | .concatenate => "concatenate"
  | .input => "input"

def ofTag? (tag : String) : Option KeyKind := all.find? (·.tag = tag)

/-- The attributes that a key of this kind must have besides `name` and `type`. -/
def requiredAttributes : KeyKind → List String
  | .value => ["value"]
  | .uuid => []
  | .lowercase => ["format"]
  | .uppercase => ["format"]
  | .replace => ["format", "match", "replacement"]
  | .escape => ["format", "char"]
  | .concatenate => ["format"]
  | .input => ["prompt"]

end KeyKind

end Stencil

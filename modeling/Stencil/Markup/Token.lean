import Stencil.Text.Span

/-!
The tokens of a config document.
-/

namespace Stencil.Markup

inductive Token where
  /-- The `<` of a start tag. -/
  | tagOpen
  /-- The `</` of a closing tag. -/
  | closeTagOpen
  /-- The `>` that ends a tag. -/
  | tagClose
  /-- The `/>` of an element without content. -/
  | selfClose
  | equals
  /-- An element or attribute name. -/
  | name (text : String)
  /-- An attribute value, with its entities decoded. -/
  | string (value : String)
deriving DecidableEq, Repr, Inhabited

/-- The token as it is named in a message. -/
def Token.describe : Token → String
  | .tagOpen => "'<'"
  | .closeTagOpen => "'</'"
  | .tagClose => "'>'"
  | .selfClose => "'/>'"
  | .equals => "'='"
  | .name text => "name '" ++ text ++ "'"
  | .string value => "string \"" ++ value ++ "\""

/-- The first character of a name is a letter or an underscore. -/
def isNameStart (c : Char) : Bool := c.isAlpha || c == '_'

/-- Further characters of a name may also be digits, full stops, colons and hyphens. -/
def isNameChar (c : Char) : Bool :=
  c.isAlphanum || c == '_' || c == '.' || c == ':' || c == '-'

/-- The white space that may stand between tokens. -/
def isLayout (c : Char) : Bool := c == ' ' || c == '\t' || c == '\n' || c == '\r'

end Stencil.Markup

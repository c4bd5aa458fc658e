import Stencil.Text.Replace

/-!
The five predefined entities of attribute values.
-/

namespace Stencil.Markup.Entity

/-- The entities and the characters they stand for, in the order in which they are decoded. The
ampersand comes last, so that `&amp;lt;` is read as `&lt;`. -/
def all : List (String × Char) :=
  [("&lt;", '<'), ("&gt;", '>'), ("&quot;", '"'), ("&apos;", '\''), ("&amp;", '&')]

/-- The text with its entities replaced; any other ampersand is kept. -/
def decode (raw : List Char) : List Char :=
  all.foldl (fun text e => Text.replaceAll e.1.toList [e.2] text) raw

end Stencil.Markup.Entity

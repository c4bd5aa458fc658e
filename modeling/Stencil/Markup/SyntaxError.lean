import Stencil.Markup.Token

/-!
What can be wrong with the tokens of a document.
-/

namespace Stencil.Markup

/-- Something that could have stood at the place of an error. -/
inductive Expected where
  | token (t : Token)
  | endOfInput
deriving DecidableEq, Repr, Inhabited

def Expected.describe : Expected → String
  | .token t => t.describe
  | .endOfInput => "end of input"

inductive Fault where
  /-- A token, or the end of the input, stands where it cannot stand. -/
  | unexpected (found : Option Token)
  /-- An element is closed under another name. -/
  | mismatch (closing opening : String)
deriving DecidableEq, Repr, Inhabited

def Fault.message : Fault → String
  | .unexpected (some t) => "Unexpected " ++ t.describe
  | .unexpected none => "Unexpected end of input"
  | .mismatch closing opening =>
    "closing tag '</" ++ closing ++ ">' does not match opening tag '<" ++ opening ++ ">'"

structure SyntaxError where
  fault : Fault
  span : Span
  expected : List Expected
deriving DecidableEq, Repr, Inhabited

namespace SyntaxError

/-- The fault without its place. -/
def detail (e : SyntaxError) : String := e.fault.message

def message (e : SyntaxError) : String :=
  "Parse error at " ++ toString e.span.start ++ ".." ++ toString e.span.stop ++ ": " ++ e.detail

end SyntaxError

end Stencil.Markup

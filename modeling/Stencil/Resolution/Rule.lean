import Stencil.Resolution.Error
import Stencil.Template.Basic
import Stencil.Text.CaseMapping
import Stencil.Text.Replace

/-!
The rules by which keys get their values.
-/

namespace Stencil

/-- What is done to a format after its placeholders are filled in. -/
inductive Transform where
  | keep
  | lower
  | upper
  | replace (pattern replacement : String)
  /-- A backslash is put before every occurrence of the text. -/
  | escape (mark : String)
deriving DecidableEq, Repr

def Transform.apply : Transform → String → String
  | .keep, s => s
  | .lower, s => Text.lower s
  | .upper, s => Text.upper s
  | .replace pattern replacement, s => Text.replace pattern replacement s
  | .escape mark, s => Text.replace mark ("\\" ++ mark) s

inductive Rule where
  /-- The value is written down. -/
  | constant (value : String)
  /-- The value is an identifier that nothing else has. -/
  | identifier
  | formatted (format : String) (transform : Transform)
deriving DecidableEq, Repr

/-- An attribute that a rule reads. -/
def Key.need (k : Key) (attr : String) : Except ResolveError String :=
  match k.attr? attr with
  | some value => .ok value
  | none => .error (.missingAttribute k.name attr)

/-- The rule of a key that is taken to be of the given kind. The value of an input is not computed,
so that there is no rule for it. -/
def Rule.ofKey (kind : KeyKind) (k : Key) : Except ResolveError Rule :=
  match kind with
  | .value => do return .constant (← k.need "value")
  | .uuid => .ok .identifier
  | .lowercase => do return .formatted (← k.need "format") .lower
  | .uppercase => do return .formatted (← k.need "format") .upper
  | .replace => do
    return .formatted (← k.need "format") (.replace (← k.need "match") (← k.need "replacement"))
  | .escape => do return .formatted (← k.need "format") (.escape (← k.need "char"))
  | .concatenate => do return .formatted (← k.need "format") .keep
  | .input => .error (.missingInput k.name)

end Stencil

import Stencil.Diagnostic

/-!
Why a resolution fails.
-/

namespace Stencil

inductive ResolveError where
  /-- A key lacks an attribute that its rule reads. -/
  | missingAttribute (key attr : String)
  /-- The type of a key is not the tag of a kind. -/
  | unknownKind (key typeTag : String)
  /-- A name is referred to and no key has it. -/
  | undefinedSymbol (name : String)
  /-- A chosen switch or case does not exist. -/
  | undefinedCase (switch case : String)
  /-- A key refers to itself, directly or through the other keys of the chain. -/
  | cyclicReference (chain : List String)
  /-- The user gave no value for a key. -/
  | missingInput (key : String)
deriving DecidableEq, Repr

namespace ResolveError

def message : ResolveError → String
  | missingAttribute key attr => "key '" ++ key ++ "' doesn't have an attribute '" ++ attr ++ "'"
  | unknownKind key typeTag => "key '" ++ key ++ "' has unsupported type '" ++ typeTag ++ "'"
  | undefinedSymbol name =>
    "key '" ++ name ++ "' could not be resolved: no such key in the template"
  | undefinedCase switch case =>
    "undefined switch case '" ++ case ++ "' for switch '" ++ switch ++ "'"
  | cyclicReference chain => "cyclic key reference: " ++ " -> ".intercalate chain
  | missingInput key => "input key '" ++ key ++ "' has no value"

/-- Faults of single definitions are errors; a name that cannot get a value is critical. -/
def severity : ResolveError → Severity
  | missingAttribute _ _ => .error
  | unknownKind _ _ => .error
  | undefinedSymbol _ => .critical
  | undefinedCase _ _ => .error
  | cyclicReference _ => .critical
  | missingInput _ => .critical

def diagnostic (e : ResolveError) : Diagnostic := ⟨e.severity, e.message⟩

end ResolveError

end Stencil

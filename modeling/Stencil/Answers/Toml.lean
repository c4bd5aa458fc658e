import Stencil.Answers.Basic
import Stencil.Toml.Document

/-!
Reading answers from a TOML document.

The document may hold a `template`, a table of `inputs` and a table of `cases`; other entries are
passed over.
-/

namespace Stencil.Answers

open Toml

/-- The entry under which a date or time shows its text where a table is asked for. -/
def momentEntry : String := "$__toml_private_datetime"

/-- The text of an entry of inputs or cases. -/
def textEntry : String × Value → Option (String × String)
  | (name, .string s) => some (name, s)
  | _ => none

/-- A table of texts. A date or time counts as a table with one entry. -/
def bindings? : Value → Option Bindings
  | .table entries => (entries.mapM textEntry).map (.ofList · compare)
  | .moment m => some ((∅ : Bindings).insert momentEntry m.text)
  | _ => none

/-- The template that is named, if one is; only a string can name it. -/
def templateName? : Option Value → Option (Option String)
  | none => some none
  | some (.string s) => some (some s)
  | some _ => none

/-- A table of texts, which is empty if it is not there. -/
def optionalBindings? : Option Value → Option Bindings
  | none => some ∅
  | some v => bindings? v

/-- The answers that a TOML document holds, unless it is no such document. -/
def ofToml? (source : String) : Option Answers := do
  let entries ← Toml.parse source
  let template? ← templateName? (entries.lookup "template")
  let inputs ← optionalBindings? (entries.lookup "inputs")
  let cases ← optionalBindings? (entries.lookup "cases")
  return ⟨template?, inputs, cases⟩

end Stencil.Answers

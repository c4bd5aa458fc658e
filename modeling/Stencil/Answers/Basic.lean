import Stencil.Markup.Element

/-!
Everything that the user decides for one run.
-/

namespace Stencil

structure Answers where
  /-- The chosen template. -/
  template? : Option String
  /-- Values for input keys. -/
  inputs : Bindings
  /-- The chosen case of each switch. -/
  cases : Bindings

def Answers.empty : Answers := ⟨none, ∅, ∅⟩

end Stencil

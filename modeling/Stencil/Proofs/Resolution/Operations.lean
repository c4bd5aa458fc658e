import Stencil.Proofs.Resolution.Requests

/-!
Operations on a session.

A session can be asked, and it can be told inputs and cases. Operations may follow one another in
any order, and any of them may fail.
-/

namespace Stencil

/-- What can be done with a session. -/
inductive Operation where
  | ask (request : Request)
  /-- Enter inputs and compute all keys. -/
  | resolveAll (inputs : Bindings)
  | absorb (inputs : Bindings)
  | applyCase (switch case : String)
  | select (t : Template)

namespace Operation

abbrev Answer : Operation → Type
  | ask r => r.Answer
  | _ => Unit

def perform (ids : IdSource) (s : Session) : (op : Operation) → Outcome op.Answer
  | ask r => r.reply ids s
  | resolveAll inputs => s.resolveAll ids inputs
  | absorb inputs => (.ok (), s.absorbInputs inputs)
  | applyCase switch case => s.applyCase switch case
  | select t => (.ok (), s.select t)

end Operation

namespace Session

variable {ids : IdSource} {s s' : Session}

/-- The session after several operations. -/
def performAll (s : Session) (ids : IdSource) (ops : List Operation) : Session :=
  ops.foldl (fun s op => (op.perform ids s).2) s

@[simp] lemma performAll_nil : s.performAll ids [] = s := rfl

lemma performAll_cons (op : Operation) (ops : List Operation) :
    s.performAll ids (op :: ops) = (op.perform ids s).2.performAll ids ops := rfl

/-- A pass over all keys first enters the inputs and then makes the session proceed. -/
lemma resolveAll_proceeds {inputs : Bindings} {r : Except ResolveError Unit}
    (h : s.resolveAll ids inputs = (r, s')) :
    (s.absorbInputs inputs).Proceeds ids (s.template.keysOfKinds KeyKind.computed) s' := by
  simp only [resolveAll] at h
  split at h
  · obtain ⟨-, rfl⟩ := Prod.mk.inj h
    exact .refl ids _ _
  · exact handleKinds_proceeds h

end Session

end Stencil

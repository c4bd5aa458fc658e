import Stencil.Proofs.Markup.Grammar

/-!
Leaving out places.

Every place in what is read is taken over from a token, and no place has a say in what is read. So
it makes no difference whether the places are left out before reading or afterwards.
-/

namespace Stencil

/-- A place that stands for all places. -/
def Span.none : Span := ⟨0, 0⟩

/-- The value without its place. -/
def Located.unplaced {α : Type} (a : Located α) : Located α := ⟨a.value, .none⟩

namespace Markup

/-! ### What is read, without its places -/

def Attribute.unplaced (a : Attribute) : Attribute := ⟨a.name.unplaced, a.value.unplaced⟩

namespace Element

mutual

/-- The element without the places of anything in it. -/
def unplaced : Element → Element
  | mk name attributes children _ =>
    mk name.unplaced (attributes.map Attribute.unplaced) (allUnplaced children) .none

def allUnplaced : List Element → List Element
  | [] => []
  | e :: es => unplaced e :: allUnplaced es

end

@[simp] lemma allUnplaced_eq_map (es : List Element) : allUnplaced es = es.map unplaced := by
  induction es with
  | nil => rfl
  | cons e es ih => rw [allUnplaced, ih, List.map_cons]

end Element

def Document.unplaced (d : Document) : Document := ⟨d.root.unplaced⟩

def OpenElement.unplaced (e : OpenElement) : OpenElement :=
  ⟨0, e.name.unplaced, e.attributes.map Attribute.unplaced, e.children.map Element.unplaced⟩

def Stage.unplaced : Stage → Stage
  | start => start
  | opened _ => opened 0
  | inTag e => inTag e.unplaced
  | named e attr => named e.unplaced attr.unplaced
  | assigned e attr => assigned e.unplaced attr.unplaced
  | inside e => inside e.unplaced
  | closing e => closing e.unplaced
  | closingNamed e name => closingNamed e.unplaced name.unplaced
  | complete root => complete root.unplaced

def Reader.unplaced (r : Reader) : Reader := ⟨r.stage.unplaced, r.around.map OpenElement.unplaced⟩

def SyntaxError.unplaced (e : SyntaxError) : SyntaxError := { e with span := .none }

/-- A result of reading without its places. -/
def unplacedResult {α : Type} (f : α → α) (x : Except SyntaxError α) : Except SyntaxError α :=
  (x.map f).mapError SyntaxError.unplaced

/-! ### Reading -/

lemma OpenElement.unplaced_close (e : OpenElement) (stop : Nat) :
    (e.close stop).unplaced = e.unplaced.close 0 := by
  simp [OpenElement.close, OpenElement.unplaced, Element.unplaced, Span.none]

namespace Reader

lemma unplaced_finish (around : List OpenElement) (e : Element) :
    (finish around e).unplaced = finish (around.map OpenElement.unplaced) e.unplaced := by
  cases around <;> rfl

variable {r : Reader} {t : Located Token} {us : List (Located Token)}

lemma step_unplaced (r : Reader) (t : Located Token) :
    r.unplaced.step t.unplaced = unplacedResult unplaced (r.step t) := by
  obtain ⟨stage, around⟩ := r
  obtain ⟨token, place⟩ := t
  have hfinish : ∀ e : OpenElement, (finish around (e.close place.stop)).unplaced =
      finish (around.map OpenElement.unplaced) (e.unplaced.close 0) := fun e => by
    rw [unplaced_finish, e.unplaced_close]
  cases stage <;> cases token
  case inTag.selfClose e => exact congrArg Except.ok (hfinish e).symm
  case closingNamed.tagClose e name =>
    change (if name.value = e.name.value then .ok _ else .error _) =
      unplacedResult unplaced (if name.value = e.name.value then .ok _ else .error _)
    by_cases hname : name.value = e.name.value
    · rw [if_pos hname, if_pos hname]
      exact congrArg Except.ok (hfinish e).symm
    · rw [if_neg hname, if_neg hname]
      rfl
  all_goals rfl

/-- The tokens are read in the same way without their places. -/
lemma run_unplaced (r : Reader) (us : List (Located Token)) :
    r.unplaced.run (us.map Located.unplaced) = unplacedResult unplaced (r.run us) := by
  induction us generalizing r with
  | nil => rfl
  | cons t us ih =>
    rw [List.map_cons, run_cons, run_cons, step_unplaced]
    cases r.step t with
    | error e => rfl
    | ok r' => exact ih r'

end Reader

namespace Document

lemma lastStop_unplaced (us : List (Located Token)) :
    lastStop 0 (us.map Located.unplaced) = 0 := by
  rw [lastStop, List.getLast?_map]
  cases us.getLast? <;> rfl

/-- A document is made of the tokens in the same way without their places. -/
lemma ofTokens_unplaced (length : Nat) (us : List (Located Token)) :
    ofTokens 0 (us.map Located.unplaced) = unplacedResult unplaced (ofTokens length us) := by
  have hrun := Reader.run_unplaced .init us
  have hinit : Reader.init.unplaced = .init := rfl
  rw [hinit] at hrun
  unfold ofTokens
  rw [hrun, lastStop_unplaced]
  cases Reader.run .init us with
  | error e => rfl
  | ok r =>
    obtain ⟨stage, around⟩ := r
    cases stage <;> rfl

/-- **Places have no say** in what is read from a text: its tokens alone decide. -/
theorem parse_unplaced (source : String) :
    unplacedResult unplaced (parse source) =
      ofTokens 0 ((values (tokens source)).map (⟨·, .none⟩)) := by
  rw [parse, ← ofTokens_unplaced, values, List.map_map]
  rfl

end Document

end Markup

end Stencil

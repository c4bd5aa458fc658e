/-!
Placeholders in texts.

A placeholder is written `$(name)`, where the name consists of lower-case letters, underscores and
parentheses. A text is cut from left to right into placeholders and single characters; at each
place the longest placeholder counts, so that `$((a))` is the placeholder of the name `(a)`.
-/

namespace Stencil.Placeholder

/-- The characters of names. -/
def isSymbolChar (c : Char) : Bool := c.isLower || c == '_' || c == '(' || c == ')'

/-- The longest name that a `)` follows, and what comes after that `)`. -/
def closing : List Char → Option (List Char × List Char)
  | [] => none
  | c :: cs =>
    if isSymbolChar c then
      match closing cs with
      | some (name, rest) => some (c :: name, rest)
      | none => if c = ')' then some ([], cs) else none
    else none

theorem eq_append_of_closing {cs name rest : List Char} (h : closing cs = some (name, rest)) :
    cs = name ++ ')' :: rest := by
  induction cs generalizing name with
  | nil => simp [closing] at h
  | cons c cs ih =>
    simp only [closing] at h
    split at h
    · split at h
      · next n r hn =>
        simp only [Option.some.injEq, Prod.mk.injEq] at h
        obtain ⟨rfl, rfl⟩ := h
        simp [ih hn]
      · split at h
        · simp_all
        · simp at h
    · simp at h

inductive Piece where
  | char (c : Char)
  | placeholder (name : String)
deriving DecidableEq, Repr, Inhabited

/-- The placeholders and the other characters of a text, in order. -/
def pieces : List Char → List Piece
  | [] => []
  | '$' :: '(' :: cs =>
    match _h : closing cs with
    | some (c :: name, rest) => .placeholder (String.ofList (c :: name)) :: pieces rest
    | _ => .char '$' :: pieces ('(' :: cs)
  | c :: cs => .char c :: pieces cs
termination_by cs => cs.length
decreasing_by
  · have := congrArg List.length (eq_append_of_closing _h)
    simp at this ⊢
    omega
  · simp
  · simp

/-- The name of a placeholder. -/
def Piece.name? : Piece → Option String
  | .char _ => none
  | .placeholder name => some name

/-- The placeholder of that name, as it is written. -/
def token (name : String) : String := "$(" ++ name ++ ")"

/-- The names of all placeholders of a text, in order and with repetitions. -/
def mentions (text : String) : List String := (pieces text.toList).filterMap Piece.name?

/-- The distinct names that a text mentions, in the order in which they first appear. -/
def references (text : String) : List String := (mentions text).eraseDups

/-- What a piece becomes: a placeholder without a value stays as it is. -/
def Piece.fill (value? : String → Option String) : Piece → String
  | .char c => String.singleton c
  | .placeholder name => (value? name).getD (token name)

/-- The text with its placeholders replaced by their values. The values are not searched again. -/
def substitute (value? : String → Option String) (text : String) : String :=
  String.join ((pieces text.toList).map (Piece.fill value?))

/-- What a piece becomes when the value of a placeholder is asked for. -/
def Piece.fillM {σ : Type} (ask : String → StateM σ (Option String)) : Piece → StateM σ String
  | .char c => return String.singleton c
  | .placeholder name => return (← ask name).getD (token name)

/-- `substitute` for values that are asked for one after the other, where every question may change
what later ones are answered with. -/
def substituteM {σ : Type} (ask : String → StateM σ (Option String)) (text : String) :
    StateM σ String := do
  return String.join (← (pieces text.toList).mapM (Piece.fillM ask))

/-- Values that are only looked up are those of `substitute`. -/
theorem substituteM_pure {σ : Type} (value? : String → Option String) (text : String) :
    substituteM (σ := σ) (fun name => return value? name) text = pure (substitute value? text) := by
  have hpieces : ∀ ps : List Piece, ps.mapM (Piece.fillM (σ := σ) fun name => return value? name) =
      pure (ps.map (Piece.fill value?)) := by
    intro ps
    induction ps with
    | nil => rfl
    | cons p ps ih => cases p <;> simp [ih, Piece.fillM, Piece.fill]
  simp [substituteM, substitute, hpieces]

end Stencil.Placeholder

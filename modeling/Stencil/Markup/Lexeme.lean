import Stencil.Markup.Entity
import Stencil.Markup.Token

/-!
Cutting a text into lexemes.

A text is cut from left to right, and every character belongs to exactly one lexeme. A lexeme is
a token, layout (white space, a whole comment or a whole prolog), or a stretch of characters that
is dropped because it is none of these.
-/

namespace Stencil.Markup

/-- What a stretch of the text is. -/
inductive Role where
  | token (t : Token)
  | layout
  | dropped
deriving DecidableEq, Repr, Inhabited

structure Lexeme where
  role : Role
  text : List Char
deriving DecidableEq, Repr, Inhabited

namespace Lexeme

/-- Reading on inside a comment: whether it ends, and after how many characters. Two hyphens
without a `>` after them end the comment badly. -/
def commentEnd : List Char → Bool × Nat
  | [] => (false, 0)
  | '-' :: '-' :: '>' :: _ => (true, 3)
  | '-' :: '-' :: _ => (false, 2)
  | '-' :: _ :: cs => let (whole, n) := commentEnd cs; (whole, n + 2)
  | _ :: cs => let (whole, n) := commentEnd cs; (whole, n + 1)

/-- Reading on inside a prolog: it ends at the first `?`, which must be followed by `>`. -/
def prologEnd (cs : List Char) : Bool × Nat :=
  let body := cs.takeWhile (· ≠ '?')
  match cs.drop body.length with
  | '?' :: '>' :: _ => (true, body.length + 2)
  | '?' :: _ => (false, body.length + 1)
  | _ => (false, body.length)

/-- A comment or prolog is layout if it is whole, and dropped otherwise. -/
def layoutIf (whole : Bool) : Role := if whole then .layout else .dropped

/-- The role of the lexeme that starts at `<`, and how many characters after it belong to it. -/
def afterLess : List Char → Role × Nat
  | '?' :: cs => let (whole, n) := prologEnd cs; (layoutIf whole, n + 1)
  | '!' :: '-' :: '-' :: cs => let (whole, n) := commentEnd cs; (layoutIf whole, n + 3)
  | '/' :: _ => (.token .closeTagOpen, 1)
  | _ => (.token .tagOpen, 0)

/-- The role of the lexeme that starts at the quote `q`; without a second quote all the rest is
dropped. -/
def afterQuote (q : Char) (cs : List Char) : Role × Nat :=
  let raw := cs.takeWhile (· ≠ q)
  if raw.length < cs.length then
    (.token (.string (String.ofList (Entity.decode raw))), raw.length + 1)
  else (.dropped, cs.length)

/-- The role of the lexeme that starts at `c`, and how many of the characters `cs` after it belong
to it. -/
def measure (c : Char) (cs : List Char) : Role × Nat :=
  if isLayout c then (.layout, (cs.takeWhile isLayout).length)
  else if isNameStart c then
    let rest := cs.takeWhile isNameChar
    (.token (.name (String.ofList (c :: rest))), rest.length)
  else match c with
    | '<' => afterLess cs
    | '>' => (.token .tagClose, 0)
    | '=' => (.token .equals, 0)
    | '/' => match cs with
      | '>' :: _ => (.token .selfClose, 1)
      | _ => (.dropped, 0)
    | '"' => afterQuote '"' cs
    | '\'' => afterQuote '\'' cs
    | _ => (.dropped, 0)

end Lexeme

/-- The lexemes of a text, in order. -/
def lexemes : List Char → List Lexeme
  | [] => []
  | c :: cs =>
    let (role, n) := Lexeme.measure c cs
    ⟨role, c :: cs.take n⟩ :: lexemes (cs.drop n)
termination_by cs => cs.length
decreasing_by simp only [List.length_drop, List.length_cons]; omega

/-- Nothing of the text is lost. -/
theorem flatMap_lexemes (cs : List Char) : (lexemes cs).flatMap Lexeme.text = cs := by
  fun_induction lexemes cs <;> simp_all

/-- The tokens among the lexemes, each with its place when the first lexeme starts at `start`. -/
def placeTokens (start : Nat) : List Lexeme → List (Located Token)
  | [] => []
  | ⟨role, text⟩ :: rest =>
    let stop := start + byteSize text
    match role with
    | .token t => ⟨t, ⟨start, stop⟩⟩ :: placeTokens stop rest
    | _ => placeTokens stop rest

/-- The tokens of a text with their places. -/
def tokens (source : String) : List (Located Token) := placeTokens 0 (lexemes source.toList)

end Stencil.Markup

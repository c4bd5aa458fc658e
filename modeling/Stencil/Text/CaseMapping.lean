import Stencil.Text.CaseMapping.Table

/-!
Upper and lower case of whole texts.

Every character maps to its full upper- or lower-case form, which may be several characters. One
letter looks at its neighbours: a capital sigma at the end of a word becomes `ς`, elsewhere `σ`.
-/

namespace Stencil.Text

namespace CaseMapping

/-- The character that the stretch maps `code` to, if it covers `code`. -/
def Stretch.image? (s : Stretch) (code : Nat) : Option Nat :=
  if s.first ≤ code ∧ code ≤ s.last ∧ (code - s.first) % s.step = 0 then
    some (code + s.distance).toNat
  else none

/-- The form of `c` given by the two tables, or `c` itself. -/
def mapped (expansions : List (Nat × List Nat)) (stretches : List Stretch) (c : Char) :
    List Char :=
  match expansions.lookup c.toNat with
  | some codes => codes.map Char.ofNat
  | none =>
    match stretches.findSome? (·.image? c.toNat) with
    | some code => [Char.ofNat code]
    | none => [c]

/-- Whether `c` lies in one of the stretches. -/
def inRanges (ranges : List (Nat × Nat)) (c : Char) : Bool :=
  ranges.any fun r => r.1 ≤ c.toNat && c.toNat ≤ r.2

def isCased : Char → Bool := inRanges casedRanges

def isIgnorable : Char → Bool := inRanges ignorableRanges

/-- Whether the first character that is not passed over has a case. -/
def nextIsCased (cs : List Char) : Bool :=
  match cs.dropWhile isIgnorable with
  | [] => false
  | c :: _ => isCased c

end CaseMapping

open CaseMapping

/-- The upper-case form of one character. -/
def upperChar (c : Char) : List Char :=
  if c.toNat < 128 then [c.toUpper] else mapped upperExpansions upperStretches c

/-- The lower-case form of one character that stands alone. -/
def lowerChar (c : Char) : List Char :=
  if c.toNat < 128 then [c.toLower] else mapped lowerExpansions lowerStretches c

/-- A capital sigma ends a word if a cased character comes before it and none after it. -/
def lowerSigma (before after : List Char) : Char :=
  if nextIsCased before && !nextIsCased after then 'ς' else 'σ'

/-- Lower case of a text that follows `before`, which is given from its end. -/
def lowerAfter (before : List Char) : List Char → List Char
  | [] => []
  | c :: cs =>
    (if c = 'Σ' then [lowerSigma before cs] else lowerChar c) ++ lowerAfter (c :: before) cs

/-- The text in lower case. -/
def lower (s : String) : String := String.ofList (lowerAfter [] s.toList)

/-- The text in upper case. -/
def upper (s : String) : String := String.ofList (s.toList.flatMap upperChar)

end Stencil.Text

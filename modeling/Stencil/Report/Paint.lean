import Stencil.Text.Width

/-!
Colours and columns of a terminal.
-/

namespace Stencil.Report

/-- The colours of a report, by what they are used for. -/
inductive Ink where
  /-- The headline, the marked text and its label. -/
  | mark
  /-- The frame and the numbers of the lines. -/
  | frame
  /-- The frame beside rows that are no lines of the text. -/
  | gap
  /-- The text that is not marked. -/
  | text
deriving DecidableEq, Repr

def Ink.code : Ink → String
  | .mark => "31"
  | .frame => "38;5;246"
  | .gap => "38;5;240"
  | .text => "38;5;249"

/-- A text in a colour, after which the colours are as before. -/
def Ink.paint (ink : Ink) (s : String) : String := "\x1b[" ++ ink.code ++ "m" ++ s ++ "\x1b[0m"

def blanks (n : Nat) : String := String.ofList (List.replicate n ' ')

/-- The columns between two tab stops. -/
def tabWidth : Nat := 4

/-- What is drawn for a character that is the `col`-th one of its line, and how many columns it
takes. A tab goes to the next stop. -/
def drawn (col : Nat) (c : Char) : Char × Nat :=
  if c = '\t' then (' ', (col / tabWidth + 1) * tabWidth - col)
  else if Text.isBlank c then (' ', 1)
  else (c, Text.columns c)

/-- One character of a line. Only blanks are repeated to fill their columns. -/
def paintChar (ink : Ink) (col : Nat) (c : Char) : String :=
  let (c, width) := drawn col c
  String.join (List.replicate (if c = ' ' then width else 1) (ink.paint (String.singleton c)))

/-- A line without the blanks at its end. -/
def trimEnd (chars : List Char) : List Char := (chars.reverse.dropWhile Text.isBlank).reverse

/-- What is drawn below a character: the first column, and each further one. -/
structure Stroke where
  head : String
  tail : String

def Stroke.plain : Stroke := ⟨" ", " "⟩

def Stroke.draw (s : Stroke) : (width : Nat) → String
  | 0 => ""
  | n + 1 => s.head ++ String.join (List.replicate n s.tail)

/-- A row below the first `count` characters of a line, each stroke as wide as the character above
it. Beyond the line a stroke takes one column. -/
def drawBelow (chars : List Char) (count : Nat) (stroke : Nat → Stroke) : String :=
  String.join ((List.range count).map fun col =>
    (stroke col).draw ((chars[col]?.map fun c => (drawn col c).2).getD 1))

end Stencil.Report

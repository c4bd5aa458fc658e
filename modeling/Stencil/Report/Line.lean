/-!
The lines of a text.

Places are counted in characters here. A line has the characters that end it; a carriage return and
the line feed after it end one line together.
-/

namespace Stencil.Report

structure Line where
  /-- The number of characters before the line. -/
  offset : Nat
  chars : List Char
deriving DecidableEq, Repr, Inhabited

/-- The number of characters up to the end of the line. -/
def Line.stop (l : Line) : Nat := l.offset + l.chars.length

def endsLine (c : Char) : Bool :=
  ['\n', '\r', '\x0b', '\x0c', '\u0085', '\u2028', '\u2029'].contains c

/-- The stretches of a text, each up to and with the end of its line. -/
def cutLines : List Char → List (List Char)
  | [] => []
  | '\r' :: '\n' :: cs => ['\r', '\n'] :: cutLines cs
  | c :: cs =>
    if endsLine c then [c] :: cutLines cs
    else
      match cutLines cs with
      | [] => [[c]]
      | l :: ls => (c :: l) :: ls

/-- Lines that follow each other, the first one starting after `offset` characters. -/
def placeLines (offset : Nat) : List (List Char) → List Line
  | [] => []
  | l :: ls => ⟨offset, l⟩ :: placeLines (offset + l.length) ls

/-- The lines of a text; the empty text has one empty line. -/
def linesOf (text : List Char) : List Line :=
  match cutLines text with
  | [] => [⟨0, []⟩]
  | ls => placeLines 0 ls

/-- The number of the line, from zero, that a place in the text belongs to. The end of the text
belongs to the last line. -/
def lineAt? (lines : List Line) (length offset : Nat) : Option Nat :=
  if offset ≤ length then some ((lines.takeWhile (·.offset ≤ offset)).length - 1) else none

theorem flatten_cutLines (text : List Char) : (cutLines text).flatten = text := by
  fun_induction cutLines text <;> simp_all

end Stencil.Report

import Stencil.Report.Line
import Stencil.Report.Paint
import Stencil.Text.Span

/-!
The layout of a report.

A report names a file, shows the lines around a marked place, and puts a label to the mark. The mark
is under the text if it lies in one line, and in the margin if it goes over several. Its place is
counted in characters; a place that lies beyond the text is not shown.
-/

namespace Stencil

structure Report where
  headline : String
  label : String
  place : Span
deriving DecidableEq, Repr, Inhabited

namespace Report

/-- What all rows of one report share. -/
structure View where
  report : Report
  /-- The columns of the line numbers. -/
  digits : Nat

namespace View

/-- The start of a row with the text of a line, whose number from zero is `index`. -/
def numbered (v : View) (index : Nat) : String :=
  let number := toString (index + 1)
  " " ++ Ink.frame.paint (blanks (v.digits - number.length) ++ number ++ " │") ++ " "

/-- The start of a row without a text. -/
def unnumbered (v : View) (bar : String) : String :=
  " " ++ Ink.gap.paint (blanks (v.digits + 1) ++ bar) ++ " "

def inMark (v : View) (offset : Nat) : Bool :=
  v.report.place.start ≤ offset && offset < v.report.place.stop

/-- The text of a line, coloured where it is marked. -/
def text (v : View) (line : Line) : String :=
  String.join ((trimEnd line.chars).mapIdx fun col c =>
    paintChar (if v.inMark (line.offset + col) then .mark else .text) col c)

def both (ink : Ink) (head tail : String) : Stroke := ⟨ink.paint head, ink.paint tail⟩

/-- The label under a mark that lies in one line: a row with the underline, and a row with the
text, joined under the middle of the mark. -/
def labelBelow (v : View) (line : Line) : String :=
  let place := v.report.place
  let middle := (place.start + place.stop) / 2 - line.offset
  let count := place.stop - line.offset + 2
  let underline := fun col =>
    let marked := v.inMark (line.offset + col)
    if col = middle then if marked then both .mark "┬" "─" else both .mark "│" " "
    else if marked then both .mark "─" "─"
    else .plain
  let arrow := fun col =>
    if col = middle then both .mark "╰" "─"
    else if middle < col then both .mark "─" "─"
    else .plain
  v.unnumbered "│" ++ drawBelow (trimEnd line.chars) count underline ++ "\n" ++
    v.unnumbered "│" ++ drawBelow (trimEnd line.chars) count arrow ++ " " ++ v.report.label ++ "\n"

/-- A corner in the margin and the arrow from there to the text of its line. -/
def arrowFrom (corner : String) : String :=
  Ink.mark.paint corner ++ Ink.mark.paint "─" ++ Ink.mark.paint "▶" ++ Ink.mark.paint " "

/-- The label of a mark in the margin, below the last line. -/
def labelBeside (v : View) (line : Line) : String :=
  let count := line.chars.length + 2
  let bar := Ink.mark.paint "─"
  v.unnumbered "│" ++ Ink.mark.paint "│" ++ blanks 3 ++
      drawBelow (trimEnd line.chars) count (fun _ => .plain) ++ "\n" ++
    v.unnumbered "│" ++ Ink.mark.paint "╰" ++ bar ++ bar ++ bar ++
      drawBelow (trimEnd line.chars) count (fun _ => both .mark "─" "─") ++ " " ++ v.report.label ++
      "\n"

/-- Whether the mark ends in the line. The end of the text counts as a place in the last line, so
that a mark can go beyond it by one character; its end and its label are not shown then. -/
def endsIn (v : View) (line : Line) : Bool := v.report.place.stop ≤ line.stop

/-- A mark that lies in one line. -/
def oneLine (v : View) (index : Nat) (line : Line) : String :=
  if v.endsIn line then v.numbered index ++ v.text line ++ "\n" ++ v.labelBelow line
  else v.unnumbered "│" ++ "\n"

/-- The row for the lines that are left out of a mark. -/
def omission (v : View) : String := v.unnumbered "┆" ++ Ink.mark.paint "┆" ++ blanks 3 ++ "\n"

/-- A mark that goes over several lines. Those between the first and the last are left out. -/
def manyLines (v : View) (first : Nat) (firstLine : Line) (last : Nat) (lastLine : Line) : String :=
  v.numbered first ++ arrowFrom "╭" ++ v.text firstLine ++ "\n" ++
    if v.endsIn lastLine then
      (if first + 1 < last then v.omission else "") ++
        v.numbered last ++ arrowFrom "├" ++ v.text lastLine ++ "\n" ++ v.labelBeside lastLine
    else v.omission

/-- The frame above the lines, which names the file and the start of the mark. -/
def top (v : View) (file : String) (index : Nat) (line : Line) : String :=
  let column := v.report.place.start - line.offset
  blanks (v.digits + 2) ++ Ink.frame.paint "╭" ++ Ink.frame.paint "─" ++ Ink.frame.paint "[" ++
      file ++ ":" ++ toString (index + 1) ++ ":" ++ toString (column + 1) ++ Ink.frame.paint "]" ++
      "\n" ++
    blanks (v.digits + 2) ++ Ink.frame.paint "│" ++ "\n"

/-- The frame below the lines. -/
def bottom (v : View) : String :=
  Ink.frame.paint (String.join (List.replicate (v.digits + 2) "─") ++ "╯") ++ "\n"

end View

/-- The marked lines in their frame, if the place lies in the text. -/
def excerpt (r : Report) (file source : String) : String :=
  let chars := source.toList
  let lines := linesOf chars
  let lineOf := lineAt? lines chars.length
  match lineOf r.place.start, lineOf (max r.place.start (r.place.stop - 1)) with
  | some first, some last =>
    let v : View := ⟨r, (toString (last + 1)).length⟩
    let firstLine := lines[first]?.getD default
    let lastLine := lines[last]?.getD default
    v.top file first firstLine ++
      (if first = last then v.oneLine first firstLine
        else v.manyLines first firstLine last lastLine) ++
      v.bottom
  | _, _ => ""

/-- The text of a report on a file. There is none if the place ends before it starts. -/
def render? (r : Report) (file source : String) : Option String :=
  if r.place.start ≤ r.place.stop then
    some (Ink.mark.paint "Error:" ++ " " ++ r.headline ++ "\n" ++ r.excerpt file source)
  else none

end Report

end Stencil

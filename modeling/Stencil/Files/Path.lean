/-!
Paths.

A path is kept as the segments between its slashes, so that nothing of its text is lost: `ws/./a`
has a segment that is a full stop, and `ws/` has an empty segment at its end.
-/

namespace Stencil

structure Path where
  segments : List String
deriving DecidableEq, Repr, Inhabited

namespace Path

/-- The pieces of a text between its slashes. -/
def cut : List Char → List (List Char)
  | [] => [[]]
  | c :: cs =>
    match cut cs with
    | [] => [[c]]
    | s :: ss => if c = '/' then [] :: s :: ss else (c :: s) :: ss

def ofText (text : String) : Path := ⟨(cut text.toList).map String.ofList⟩

def text (p : Path) : String := "/".intercalate p.segments

/-- The path of no text at all. -/
def empty : Path := ⟨[""]⟩

/-- A path that starts with a slash. -/
def isAbsolute (p : Path) : Bool :=
  match p.segments with
  | "" :: _ :: _ => true
  | _ => false

/-- The path `p` as seen from the directory `base`. -/
def join (base p : Path) : Path :=
  if p.isAbsolute ∨ base = empty then p
  else if base.segments.getLast? = some "" then ⟨base.segments.dropLast ++ p.segments⟩
  else ⟨base.segments ++ p.segments⟩

/-- Segments that stay where they are. -/
def isIdle (segment : String) : Bool := segment == "" || segment == "."

/-- The segments without the idle ones at the end. -/
def trimEnd (segments : List String) : List String := (segments.reverse.dropWhile isIdle).reverse

/-- The path without its last proper segment, if it has one. A full stop at the start counts. -/
def parent? (p : Path) : Option Path :=
  match p.segments with
  | "" :: s :: ss =>
    match trimEnd (s :: ss) with
    | [] => none
    | proper =>
      match trimEnd proper.dropLast with
      | [] => some ⟨["", ""]⟩
      | rest => some ⟨"" :: rest⟩
  | "." :: ss =>
    match trimEnd ss with
    | [] => some empty
    | proper => some ⟨"." :: trimEnd proper.dropLast⟩
  | ss =>
    match trimEnd ss with
    | [] => none
    | proper =>
      match trimEnd proper.dropLast with
      | [] => some empty
      | rest => some ⟨rest⟩

/-- Whether the path leads from a directory to a place in or below it. -/
def staysBelow (p : Path) : Bool := !p.isAbsolute && p.segments.all (· ≠ "..")

end Path

end Stencil

/-!
Replacing one text by another wherever it occurs.

Occurrences are found from left to right and do not overlap. The empty text occurs before every
character and once more at the end.
-/

namespace Stencil.Text

/-- Replace the occurrences of `p :: ps`. -/
def replaceFrom (p : Char) (ps new : List Char) : List Char → List Char
  | [] => []
  | c :: cs =>
    if (p :: ps).isPrefixOf (c :: cs) then new ++ replaceFrom p ps new (cs.drop ps.length)
    else c :: replaceFrom p ps new cs
termination_by cs => cs.length
decreasing_by all_goals (simp only [List.length_drop, List.length_cons]; omega)

/-- Put `new` before every character and at the end. -/
def interleave (new : List Char) : List Char → List Char
  | [] => new
  | c :: cs => new ++ c :: interleave new cs

/-- The text with every occurrence of `old` replaced by `new`. -/
def replaceAll (old new text : List Char) : List Char :=
  match old with
  | [] => interleave new text
  | p :: ps => replaceFrom p ps new text

/-- `replaceAll` on strings. -/
def replace (old new text : String) : String :=
  String.ofList (replaceAll old.toList new.toList text.toList)

end Stencil.Text

import Mathlib.Data.List.Basic
import Stencil.Text.Replace

/-!
Replacing one text by another.

Nothing happens before the first occurrence of the old text, and what is put in is not looked at
again. So a single character is replaced wherever it stands. To escape it is to replace it by itself
with a backslash in front, and the opposite replacement takes the backslashes away again.
-/

namespace Stencil.Text

variable {p : Char} {ps new cs : List Char}

lemma replaceAll_append (hcs : p ∉ cs) (rest : List Char) :
    replaceAll (p :: ps) new (cs ++ rest) = cs ++ replaceAll (p :: ps) new rest := by
  simp only [replaceAll]
  induction cs with
  | nil => rfl
  | cons c cs ih =>
    rw [List.mem_cons, not_or] at hcs
    rw [List.cons_append, replaceFrom, if_neg (by simp [hcs.1]), ih hcs.2, List.cons_append]

lemma replaceAll_self_append (rest : List Char) :
    replaceAll (p :: ps) new (p :: ps ++ rest) = new ++ replaceAll (p :: ps) new rest := by
  rw [replaceAll, List.cons_append, replaceFrom, if_pos (by simp), List.drop_left]
  rfl

lemma replaceAll_cons_of_not_prefix {c : Char} (h : ¬ p :: ps <+: c :: cs) :
    replaceAll (p :: ps) new (c :: cs) = c :: replaceAll (p :: ps) new cs := by
  rw [replaceAll, replaceFrom, if_neg (by simpa using h)]
  rfl

lemma replaceAll_nil : replaceAll (p :: ps) new [] = [] := by
  rw [replaceAll, replaceFrom]

/-- A single character is replaced wherever it stands. -/
lemma replaceAll_singleton (c : Char) (new text : List Char) :
    replaceAll [c] new text = text.flatMap fun d => if d = c then new else [d] := by
  induction text with
  | nil => rw [replaceAll_nil, List.flatMap_nil]
  | cons d text ih =>
    rw [List.flatMap_cons, ← ih]
    by_cases h : d = c
    · subst h
      rw [if_pos rfl]
      exact replaceAll_self_append text
    · have hplain : c ∉ [d] := by simpa using Ne.symm h
      rw [if_neg h]
      exact replaceAll_append hplain text

/-! ### Escaping one character -/

/-- The text with a backslash before each occurrence of the mark, and else as it is. -/
def escaped (mark : Char) (text : List Char) : List Char :=
  text.flatMap fun c => if c = mark then ['\\', mark] else [c]

variable {mark c : Char} {text : List Char}

@[simp] lemma escaped_nil : escaped mark [] = [] := rfl

lemma escaped_cons_self : escaped mark (mark :: text) = '\\' :: mark :: escaped mark text := by
  simp [escaped]

lemma escaped_cons_of_ne (h : c ≠ mark) : escaped mark (c :: text) = c :: escaped mark text := by
  simp [escaped, h]

/-- An escaped text starts with a mark only if the mark is the backslash itself. -/
lemma head?_escaped_ne (h : '\\' ≠ mark) : (escaped mark text).head? ≠ some mark := by
  cases text with
  | nil => simp
  | cons c text =>
    by_cases hc : c = mark
    · subst hc
      simpa [escaped_cons_self] using h
    · simpa [escaped_cons_of_ne hc] using hc

/-- Each mark of an escaped text loses its backslash again. -/
lemma replaceAll_escaped (mark : Char) (text : List Char) :
    replaceAll ['\\', mark] [mark] (escaped mark text) = text := by
  induction text with
  | nil => rw [escaped_nil, replaceAll_nil]
  | cons c text ih =>
    by_cases hc : c = mark
    · subst hc
      rw [escaped_cons_self]
      exact (replaceAll_self_append _).trans (congrArg (c :: ·) ih)
    · -- a backslash that was there before has no mark after it: that has one of its own
      have hplain : ¬ ['\\', mark] <+: c :: escaped mark text := by
        rw [List.cons_prefix_cons]
        rintro ⟨rfl, rest, hrest⟩
        exact head?_escaped_ne hc (by rw [← hrest]; rfl)
      rw [escaped_cons_of_ne hc, replaceAll_cons_of_not_prefix hplain, ih]

/-- `escaped` on strings. -/
def escape (mark : Char) (text : String) : String := String.ofList (escaped mark text.toList)

/-- Replacing a character by itself with a backslash in front escapes it. -/
lemma replace_eq_escape (mark : Char) (text : String) :
    replace (String.singleton mark) ("\\" ++ String.singleton mark) text = escape mark text := by
  simp [replace, escape, escaped, replaceAll_singleton]

/-- **Escaping is undone** by the opposite replacement. -/
lemma replace_escape (mark : Char) (text : String) :
    replace ("\\" ++ String.singleton mark) (String.singleton mark) (escape mark text) = text := by
  have hundone := replaceAll_escaped mark text.toList
  simp [replace, escape, hundone]

lemma escape_injective (mark : Char) : Function.Injective (escape mark) :=
  Function.LeftInverse.injective (replace_escape mark)

end Stencil.Text

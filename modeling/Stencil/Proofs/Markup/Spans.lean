import Mathlib.Data.List.Basic
import Stencil.Markup.Document

/-!
Where the tokens of a text lie.

A lexeme is never empty, and each starts where the one before it ends. So the tokens lie in the text
one after the other, with room for layout between them.
-/

namespace Stencil.Markup

/-- The tokens lie one after the other between two places, and none of them is empty. -/
inductive Laid : Nat → Nat → List (Located Token) → Prop
  | nil {start stop : Nat} (h : start ≤ stop) : Laid start stop []
  | cons {start stop : Nat} {t : Located Token} {ts : List (Located Token)}
    (hstart : start ≤ t.span.start) (hstop : t.span.start < t.span.stop)
    (h : Laid t.span.stop stop ts) : Laid start stop (t :: ts)

namespace Laid

variable {start middle stop : Nat} {t : Located Token} {ts us : List (Located Token)}

lemma le (h : Laid start stop ts) : start ≤ stop := by
  induction h with
  | nil h => exact h
  | cons hstart hstop _ ih => omega

/-- Layout may stand before the first token. -/
lemma mono (h : Laid middle stop ts) (hstart : start ≤ middle) : Laid start stop ts := by
  cases h with
  | nil h => exact .nil (Nat.le_trans hstart h)
  | cons hmiddle hstop h => exact .cons (Nat.le_trans hstart hmiddle) hstop h

/-- Layout may stand after the last token. -/
lemma mono_stop (h : Laid start middle ts) (hstop : middle ≤ stop) : Laid start stop ts := by
  induction h with
  | nil h => exact .nil (Nat.le_trans h hstop)
  | cons hstart hlt _ ih => exact .cons hstart hlt (ih hstop)

lemma append_iff :
    Laid start stop (ts ++ us) ↔ ∃ middle, Laid start middle ts ∧ Laid middle stop us := by
  induction ts generalizing start with
  | nil =>
    constructor
    · intro h
      exact ⟨start, .nil (Nat.le_refl _), h⟩
    · rintro ⟨middle, h, hus⟩
      exact hus.mono h.le
  | cons t ts ih =>
    constructor
    · intro h
      cases h with
      | cons hstart hstop h =>
        obtain ⟨middle, hts, hus⟩ := ih.mp h
        exact ⟨middle, .cons hstart hstop hts, hus⟩
    · rintro ⟨middle, h, hus⟩
      cases h with
      | cons hstart hstop h => exact .cons hstart hstop (ih.mpr ⟨middle, h, hus⟩)

/-- A token lies where it is found among the others. -/
lemma of_mem (h : Laid start stop ts) (ht : t ∈ ts) :
    start ≤ t.span.start ∧ t.span.start < t.span.stop ∧ t.span.stop ≤ stop := by
  obtain ⟨us, vs, rfl⟩ := List.append_of_mem ht
  obtain ⟨middle, hus, hvs⟩ := append_iff.mp h
  cases hvs with
  | cons hstart hstop hvs => exact ⟨Nat.le_trans hus.le hstart, hstop, hvs.le⟩

end Laid

lemma text_ne_nil_of_mem_lexemes {cs : List Char} {l : Lexeme} (h : l ∈ lexemes cs) :
    l.text ≠ [] := by
  fun_induction lexemes cs with
  | case1 => exact absurd h List.not_mem_nil
  | case2 c cs role n _ ih =>
    rcases List.mem_cons.mp h with rfl | h
    · exact List.cons_ne_nil _ _
    · exact ih h

lemma byteSize_pos {cs : List Char} (h : cs ≠ []) : 0 < byteSize cs := by
  obtain ⟨c, cs, rfl⟩ := List.exists_cons_of_ne_nil h
  rw [byteSize_cons]
  exact Nat.add_pos_left c.utf8Size_pos _

/-- Lexemes of which none is empty are laid one after the other. -/
lemma laid_placeTokens (start : Nat) {ls : List Lexeme} (h : ∀ l ∈ ls, l.text ≠ []) :
    Laid start (start + byteSize (ls.flatMap Lexeme.text)) (placeTokens start ls) := by
  induction ls generalizing start with
  | nil => exact .nil (Nat.le_refl _)
  | cons l ls ih =>
    obtain ⟨role, text⟩ := l
    obtain ⟨htext, hrest⟩ := List.forall_mem_cons.mp h
    have hpos := byteSize_pos htext
    have hlaid := ih (start + byteSize text) hrest
    rw [List.flatMap_cons, byteSize_append, ← Nat.add_assoc]
    cases role with
    | token t => exact .cons (Nat.le_refl _) (Nat.lt_add_of_pos_right hpos) hlaid
    | layout => exact hlaid.mono (Nat.le_add_right _ _)
    | dropped => exact hlaid.mono (Nat.le_add_right _ _)

/-- **Where tokens lie.** The tokens of a text lie in it one after the other, and none of them is
empty. -/
theorem laid_tokens (source : String) : Laid 0 (byteSize source.toList) (tokens source) := by
  have hne : ∀ l ∈ lexemes source.toList, l.text ≠ [] := fun l hl => text_ne_nil_of_mem_lexemes hl
  have hlaid := laid_placeTokens 0 hne
  rwa [flatMap_lexemes, Nat.zero_add] at hlaid

end Stencil.Markup

import Mathlib.Data.List.Chain
import Mathlib.Data.List.Nodup
import Mathlib.Data.List.TakeWhile
import Stencil.Proofs.Resolution.Rule

/-!
Keys that refer to themselves.

The names that wait for one another are, from the outermost to the innermost, names of keys whose
formats refer to the next one. So if a name is asked for that waits already, then the names from
there on refer to one another in a circle.
-/

namespace Stencil

namespace Key

lemma exists_format_of_mem {k : Key} {kind : KeyKind} {n : String} (h : n ∈ k.referencesAs kind) :
    "format" ∈ kind.requiredAttributes ∧
      ∃ format, k.attr? "format" = some format ∧ n ∈ Placeholder.references format := by
  cases hf : k.attr? "format" with
  | none => cases kind <;> simp [referencesAs, hf] at h
  | some format => cases kind <;> simp_all [referencesAs, KeyKind.requiredAttributes]

end Key

namespace Template

variable {t : Template} {values : Bindings} {waiting : List String} {name n : String}

/-- A key of that name is of a kind that has a format, and its format refers to `n`. -/
def Refers (t : Template) (name n : String) : Prop :=
  ∃ k ∈ t.keys, ∃ kind format, k.name = name ∧ k.kind? = some kind ∧
    "format" ∈ kind.requiredAttributes ∧ k.attr? "format" = some format ∧
    n ∈ Placeholder.references format

lemma refers_of_mem {k : Key} {kind : KeyKind} (hk : k ∈ t.keys) (hkind : k.kind? = some kind)
    (hn : n ∈ k.referencesAs kind) : t.Refers k.name n := by
  obtain ⟨hformat, format, hf, hn⟩ := Key.exists_format_of_mem hn
  exact ⟨k, hk, kind, format, rfl, hkind, hformat, hf, hn⟩

/-- Names that refer to one another in a circle, which starts and ends with the same name. None of
them has a value. -/
structure Circle (t : Template) (values : Bindings) (chain : List String) : Prop where
  long : 2 ≤ chain.length
  closed : chain.head? = chain.getLast?
  distinct : chain.dropLast.Nodup
  valueless : ∀ n ∈ chain, n ∉ values
  refers : chain.IsChain t.Refers

/-- What is known of the names that wait, the innermost first, when a name is asked for. -/
structure Waits (t : Template) (values : Bindings) (waiting : List String) (name : String) :
    Prop where
  refers : (waiting.reverse ++ [name]).IsChain t.Refers
  distinct : waiting.Nodup
  valueless : ∀ n ∈ waiting, n ∉ values

namespace Waits

lemma nil (t : Template) (values : Bindings) (name : String) : t.Waits values [] name :=
  ⟨by simp, .nil, by simp⟩

/-- The name waits for the next one. -/
lemma cons (h : t.Waits values waiting name) (hw : name ∉ waiting) (hnew : name ∉ values)
    (hn : t.Refers name n) : t.Waits values (name :: waiting) n where
  refers := by
    rw [List.reverse_cons, List.isChain_append]
    exact ⟨h.refers, by simp, by simpa using hn⟩
  distinct := List.nodup_cons.mpr ⟨hw, h.distinct⟩
  valueless := List.forall_mem_cons.mpr ⟨hnew, h.valueless⟩

/-- **A name that waits for itself** is part of a circle. -/
theorem circle (h : t.Waits values waiting name) (hw : name ∈ waiting) :
    t.Circle values (cycle waiting name) := by
  have hsuffix : waiting.reverse.dropWhile (· ≠ name) <:+ waiting.reverse := List.dropWhile_suffix _
  -- the names from its own first occurrence on begin with it
  obtain ⟨rest, hrest⟩ : ∃ rest, waiting.reverse.dropWhile (· ≠ name) = name :: rest := by
    cases hd : waiting.reverse.dropWhile (· ≠ name) with
    | nil =>
      have hall := List.dropWhile_eq_nil_iff.mp hd name (List.mem_reverse.mpr hw)
      simp at hall
    | cons n rest =>
      have hhead := List.head?_dropWhile_not (· ≠ name) waiting.reverse
      rw [hd] at hhead
      obtain rfl : n = name := by simpa using hhead
      exact ⟨rest, rfl⟩
  unfold cycle
  rw [hrest] at hsuffix ⊢
  refine ⟨by simp, by rw [List.getLast?_concat]; rfl, ?_, fun n hn => ?_, ?_⟩
  · rw [List.dropLast_concat]
    exact (List.nodup_reverse.mpr h.distinct).sublist hsuffix.sublist
  · have hmem : n ∈ name :: rest := by
      rcases List.mem_append.mp hn with hn | hn
      · exact hn
      · simp_all
    exact h.valueless n (List.mem_reverse.mp (hsuffix.subset hmem))
  · obtain ⟨before, hbefore⟩ := hsuffix
    have hrefers := h.refers
    rw [← hbefore, List.append_assoc] at hrefers
    exact hrefers.right_of_append

end Waits

end Template

end Stencil

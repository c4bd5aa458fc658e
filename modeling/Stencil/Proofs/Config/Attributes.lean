import Mathlib.Data.List.Induction
import Stencil.Markup.Document
import Stencil.Proofs.Config.Construction

/-!
Attributes that are given more than once.

The grammar does not keep a tag from giving an attribute several times. An element that is asked for
it answers with the first value, and a key that has been read from the element with the last one,
except for its own name and type. So the checks and the keys may go by different values.
-/

namespace Stencil

open Markup

namespace Markup.Element

/-- The values that the element gives for the attribute, in order. -/
def valuesOf (e : Element) (attr : String) : List String :=
  (e.attributes.filter (·.name.value = attr)).map (·.value.value)

/-- An element answers with the first value of an attribute. -/
lemma attr?_eq_head? (e : Element) (attr : String) : e.attr? attr = (e.valuesOf attr).head? := by
  rw [attr?, attribute?, valuesOf, List.head?_map, List.head?_filter]

/-- All attributes by name have the last value of each. -/
lemma getElem?_attributeMap (e : Element) (attr : String) :
    e.attributeMap[attr]? = (e.valuesOf attr).getLast? := by
  unfold attributeMap valuesOf
  -- each attribute is entered after those before it in the list
  induction e.attributes using List.reverseRecOn with
  | nil => rfl
  | append_singleton as a ih =>
    rw [Std.ExtTreeMap.ofList_eq_insertMany_empty] at ih ⊢
    rw [List.map_append, List.map_singleton, Std.ExtTreeMap.insertMany_append,
      Std.ExtTreeMap.insertMany_list_singleton, Std.ExtTreeMap.getElem?_insert, ih,
      List.filter_append]
    by_cases hname : a.name.value = attr
    · simp [hname]
    · simp [hname]

end Markup.Element

namespace Key

variable {e : Element} {k : Key}

lemma ofElement?_eq_some_iff : ofElement? e = some k ↔ ofElement e = .ok k := by
  unfold ofElement
  cases ofElement? e <;> simp

/-- A key has the last values of its element, but for its own name and type. -/
lemma attr?_of_ofElement (h : ofElement e = .ok k) (attr : String) :
    k.attr? attr = if attr = "type" ∨ attr = "name" then none else (e.valuesOf attr).getLast? := by
  obtain ⟨-, -, hattributes⟩ := ofElement_eq_ok_iff.mp h
  rw [attr?, ← hattributes, Std.ExtTreeMap.getElem?_erase, Std.ExtTreeMap.getElem?_erase,
    e.getElem?_attributeMap]
  simp only [Std.compare_eq_iff_eq, eq_comm (b := attr), ite_or]

/-- **What a key takes over from its element.** Its name and its type are what the element answers
if it is asked for them, and are no attributes of the key. For every other attribute an element
answers with the first of the values that it gives, and the key with the last. -/
theorem ofElement?_attributes (h : ofElement? e = some k) :
    e.attr? "name" = some k.name ∧ e.attr? "type" = some k.typeTag ∧
    k.attr? "name" = none ∧ k.attr? "type" = none ∧
    ∀ attr, attr ≠ "name" → attr ≠ "type" →
      e.attr? attr = (e.valuesOf attr).head? ∧ k.attr? attr = (e.valuesOf attr).getLast? ∧
      ((e.valuesOf attr).length ≤ 1 → k.attr? attr = e.attr? attr) := by
  have hread := ofElement?_eq_some_iff.mp h
  obtain ⟨hname, htype, -⟩ := ofElement_eq_ok_iff.mp hread
  have hattr := attr?_of_ofElement hread
  refine ⟨hname, htype, hattr "name", hattr "type", fun attr hn ht => ?_⟩
  have hlast : k.attr? attr = (e.valuesOf attr).getLast? := by
    rw [hattr, if_neg (not_or.mpr ⟨ht, hn⟩)]
  refine ⟨e.attr?_eq_head? attr, hlast, fun honce => ?_⟩
  rw [hlast, e.attr?_eq_head?]
  generalize e.valuesOf attr = values at honce
  rcases values with _ | ⟨value, _ | ⟨other, values⟩⟩
  · rfl
  · rfl
  · simp at honce

/-- A template with a key that gives its value twice. -/
def repeatedSource : String :=
  "<template name='t' desc='d'><key name='a' type='value' value='1' value='2'/></template>"

lemma exists_repeated : ∃ d, Document.parse repeatedSource = .ok d ∧ ∃ e ∈ d.elements,
    e.tag = "key" ∧ e.valuesOf "value" = ["1", "2"] ∧ ∃ k, ofElement? e = some k := by
  have hparse : (Document.parse repeatedSource).toOption.any fun d => d.elements.any fun e =>
      e.tag = "key" ∧ e.valuesOf "value" = ["1", "2"] ∧ (ofElement? e).isSome := by
    decide +kernel
  obtain ⟨d, hd, hany⟩ := exists_of_toOption_any hparse
  obtain ⟨e, he, hkey⟩ := List.any_eq_true.mp hany
  obtain ⟨htag, hvalues, hsome⟩ := of_decide_eq_true hkey
  exact ⟨d, hd, e, he, htag, hvalues, Option.isSome_iff_exists.mp hsome⟩

/-- The element answers with the first value of the key, and the key with the second. -/
theorem ofElement?_attributes_repeated : ∃ d, Document.parse repeatedSource = .ok d ∧
    ∃ e ∈ d.elements, ∃ k, ofElement? e = some k ∧
      e.attr? "value" = some "1" ∧ k.attr? "value" = some "2" := by
  obtain ⟨d, hd, e, he, -, hvalues, k, hk⟩ := exists_repeated
  obtain ⟨-, -, -, -, hattr⟩ := ofElement?_attributes hk
  obtain ⟨hfirst, hlast, -⟩ := hattr "value" (by decide) (by decide)
  rw [hvalues] at hfirst hlast
  exact ⟨d, hd, e, he, k, hk, hfirst, hlast⟩

/-- Keys and their elements do not always agree: it is enough that an attribute is given twice. -/
theorem not_all_attributes_agree : ¬ ∀ (source : String) (d : Document) (e : Element) (k : Key),
    Document.parse source = .ok d → e ∈ d.elements → e.tag = "key" → ofElement? e = some k →
      e.attr? "name" = some k.name ∧ e.attr? "type" = some k.typeTag ∧
      ∀ attr, attr ≠ "name" → attr ≠ "type" → k.attr? attr = e.attr? attr := by
  intro h
  obtain ⟨d, hd, e, he, htag, hvalues, k, hk⟩ := exists_repeated
  obtain ⟨-, -, hagree⟩ := h _ d e k hd he htag hk
  have hvalue := hagree "value" (by decide) (by decide)
  rw [attr?_of_ofElement (ofElement?_eq_some_iff.mp hk), Element.attr?_eq_head?, hvalues] at hvalue
  exact absurd hvalue (by decide)

end Key

end Stencil

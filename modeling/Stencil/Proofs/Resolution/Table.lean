import Mathlib.Data.List.Basic
import Stencil.Resolution.Demand

/-!
Tables of values.

A later table extends an earlier one if it has all its values. Where entries are made one after the
other, the last entry of a name counts; entries that the table has already change nothing.
-/

namespace Stencil

lemma mem_iff_exists {values : Bindings} {n : String} :
    n ∈ values ↔ ∃ v, values[n]? = some v := by
  rw [Std.ExtTreeMap.mem_iff_isSome_getElem?, Option.isSome_iff_exists]

lemma getElem?_eq_none_iff {values : Bindings} {n : String} :
    values[n]? = none ↔ n ∉ values := by
  rw [mem_iff_exists, Option.eq_none_iff_forall_ne_some, not_exists]

/-- The later table has all values of the earlier one. -/
def Bindings.Extends (values earlier : Bindings) : Prop :=
  ∀ n v : String, earlier[n]? = some v → values[n]? = some v

lemma Bindings.Extends.mem {values earlier : Bindings} (h : values.Extends earlier) {n : String}
    (hn : n ∈ earlier) : n ∈ values := by
  obtain ⟨v, hv⟩ := mem_iff_exists.mp hn
  exact mem_iff_exists.mpr ⟨v, h n v hv⟩

lemma Bindings.Extends.getElem?_eq {values earlier : Bindings} (h : values.Extends earlier)
    {n : String} (hn : n ∈ earlier) : values[n]? = earlier[n]? := by
  obtain ⟨v, hv⟩ := mem_iff_exists.mp hn
  rw [h n v hv, hv]

/-- The last value that the entries have for the name. -/
def lastValue? (entries : List (String × String)) (name : String) : Option String :=
  (entries.reverse.find? (·.1 = name)).map (·.2)

@[simp] lemma lastValue?_nil (name : String) : lastValue? [] name = none := rfl

@[simp] lemma lastValue?_cons (e : String × String) (entries : List (String × String))
    (name : String) : lastValue? (e :: entries) name =
      (lastValue? entries name).or (if e.1 = name then some e.2 else none) := by
  simp only [lastValue?, List.reverse_cons, List.find?_append, Option.map_or]
  congr 1
  by_cases h : e.1 = name <;> simp [h]

lemma lastValue?_isSome_iff {entries : List (String × String)} {name : String} :
    (lastValue? entries name).isSome ↔ name ∈ entries.map Prod.fst := by
  simp [lastValue?]

lemma lastValue?_toList (inputs : Bindings) (name : String) :
    lastValue? inputs.toList name = inputs[name]? := by
  unfold lastValue?
  cases h : inputs.toList.reverse.find? (·.1 = name) with
  | some e =>
    have hname : e.1 = name := by simpa using List.find?_some h
    have hmem : (e.1, e.2) ∈ inputs.toList := List.mem_reverse.mp (List.mem_of_find?_eq_some h)
    rw [Std.ExtTreeMap.mem_toList_iff_getElem?_eq_some, hname] at hmem
    rw [hmem]
    rfl
  | none =>
    refine (Option.eq_none_iff_forall_ne_some.mpr fun v hv => ?_).symm
    have hmem := Std.ExtTreeMap.mem_toList_iff_getElem?_eq_some.mpr hv
    have hne := List.find?_eq_none.mp h _ (List.mem_reverse.mpr hmem)
    simp at hne

namespace Progress

variable {p : Progress} {fixed : List String}

lemma getElem?_enter (name value n : String) :
    (p.enter name value).values[n]? = if name = n then some value else p.values[n]? := by
  simp only [enter, Std.ExtTreeMap.getElem?_insert, Std.compare_eq_iff_eq]

/-- Make one entry, unless the value of its name must not be replaced. -/
def enterUnless (fixed : List String) (p : Progress) (e : String × String) : Progress :=
  if e.1 ∈ fixed then p else p.enter e.1 e.2

lemma getElem?_enterUnless (e : String × String) (n : String) :
    (p.enterUnless fixed e).values[n]? =
      if n ∈ fixed then p.values[n]?
      else (if e.1 = n then some e.2 else none).or p.values[n]? := by
  unfold enterUnless
  by_cases he : e.1 = n
  · subst he
    by_cases hn : e.1 ∈ fixed <;> simp [hn, getElem?_enter]
  · split <;> simp [he, getElem?_enter]

lemma getElem?_foldl_enterUnless (entries : List (String × String)) (p : Progress) (n : String) :
    (entries.foldl (enterUnless fixed) p).values[n]? =
      if n ∈ fixed then p.values[n]? else (lastValue? entries n).or p.values[n]? := by
  induction entries generalizing p with
  | nil => simp
  | cons e entries ih =>
    rw [List.foldl_cons, ih, getElem?_enterUnless, lastValue?_cons, Option.or_assoc]
    split <;> rfl

lemma issued_foldl_enterUnless (entries : List (String × String)) (p : Progress) :
    (entries.foldl (enterUnless fixed) p).issued = p.issued := by
  induction entries generalizing p with
  | nil => rfl
  | cons e entries ih =>
    rw [List.foldl_cons, ih, enterUnless]
    split <;> rfl

lemma getElem?_enterAll (entries : Bindings) (n : String) :
    (p.enterAll fixed entries).values[n]? =
      if n ∈ fixed then p.values[n]? else entries[n]?.or p.values[n]? := by
  rw [← lastValue?_toList entries]
  exact getElem?_foldl_enterUnless entries.toList p n

lemma issued_enterAll (entries : Bindings) : (p.enterAll fixed entries).issued = p.issued :=
  issued_foldl_enterUnless entries.toList p

/-- Entries that are there already change nothing. -/
lemma enterAll_eq_self {entries : Bindings}
    (h : ∀ n v, entries[n]? = some v → n ∉ fixed → p.values[n]? = some v) :
    p.enterAll fixed entries = p := by
  have hvalues : (p.enterAll fixed entries).values = p.values := by
    refine Std.ExtTreeMap.ext_getElem? fun n => ?_
    rw [getElem?_enterAll]
    split
    · rfl
    · next hn =>
      cases hv : entries[n]? with
      | none => rfl
      | some v => exact (h n v hv hn).symm
  calc p.enterAll fixed entries
      = ⟨(p.enterAll fixed entries).values, (p.enterAll fixed entries).issued⟩ := rfl
    _ = p := by rw [hvalues, issued_enterAll]

end Progress

end Stencil

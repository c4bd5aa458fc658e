import Mathlib.Logic.Relation
import Stencil.Proofs.Resolution.Rule

/-!
How the table of values fills.

Whatever is asked for, and whether or not it succeeds, the table changes in one way only: a name
without a value gets the one that its rule gives, after everything that the rule refers to has a
value. What holds of the table after any request is read off such runs.
-/

namespace Stencil

/-- The rule of a name, if a key has the name and its type and attributes make one. -/
def Template.rule? (t : Template) (name : String) : Option Rule := do
  let k ← t.key? name
  let kind ← k.kind?
  (Rule.ofKey kind k).toOption

namespace Progress

/-- Enter what a rule gives to a name. -/
def fill (ids : IdSource) (p : Progress) (name : String) (rule : Rule) : Progress :=
  ⟨p.values.insert name (rule.valueIn ids p name), p.issued + rule.uses⟩

/-- A name without a value gets the one of its rule. -/
inductive Step (ids : IdSource) (rules : String → Rule → Prop) (p : Progress) : Progress → Prop
  | fill {name : String} {rule : Rule} (hrule : rules name rule) (hnew : name ∉ p.values)
      (hready : ∀ n ∈ rule.references, n ∈ p.values) : Step ids rules p (p.fill ids name rule)

/-- Names get their values one after the other. -/
abbrev Run (ids : IdSource) (rules : String → Rule → Prop) : Progress → Progress → Prop :=
  Relation.ReflTransGen (Step ids rules)

end Progress

/-! ### What a run keeps -/

namespace Progress

variable {ids : IdSource} {rules rules' : String → Rule → Prop} {p q : Progress}

lemma getElem?_fill (name : String) (rule : Rule) (n : String) :
    (p.fill ids name rule).values[n]? =
      if name = n then some (rule.valueIn ids p name) else p.values[n]? := by
  simp only [fill, Std.ExtTreeMap.getElem?_insert, Std.compare_eq_iff_eq]

lemma Step.extends (h : Step ids rules p q) : q.values.Extends p.values := by
  obtain ⟨-, hnew, -⟩ := h
  intro n v hv
  rw [getElem?_fill, if_neg, hv]
  rintro rfl
  exact hnew (mem_iff_exists.mpr ⟨v, hv⟩)

lemma Run.extends (h : Run ids rules p q) : q.values.Extends p.values := by
  induction h with
  | refl => exact fun n v hv => hv
  | tail _ hs ih => exact fun n v hv => hs.extends n v (ih n v hv)

lemma Run.mono (hr : ∀ n rule, rules n rule → rules' n rule) (h : Run ids rules p q) :
    Run ids rules' p q := by
  refine Relation.ReflTransGen.mono ?_ _ _ h
  rintro a _ ⟨hrule, hnew, hready⟩
  exact .fill (hr _ _ hrule) hnew hready

/-- Every new value is the one that a rule gives on the table that is reached. -/
lemma Run.gives (h : Run ids rules p q) {n v : String} (hn : n ∉ p.values)
    (hv : q.values[n]? = some v) : ∃ rule, rules n rule ∧ rule.Gives ids q.values n v := by
  induction h generalizing v with
  | refl => exact absurd (mem_iff_exists.mpr ⟨v, hv⟩) hn
  | @tail b _ _ hs ih =>
    have hext := hs.extends
    obtain @⟨name, rule, hrule, hnew, hready⟩ := hs
    rw [getElem?_fill] at hv
    split at hv
    · next heq =>
      subst heq
      refine ⟨rule, hrule, Rule.Gives.extend hext ⟨hready, b.issued, ?_⟩⟩
      exact (Option.some.inj hv).symm
    · obtain ⟨rule', hr', hg⟩ := ih hv
      exact ⟨rule', hr', hg.extend hext⟩

/-- A name without a rule gets no value. -/
lemma Run.not_mem (h : Run ids rules p q) {n : String} (hn : n ∉ p.values)
    (hrule : ∀ rule, ¬ rules n rule) : n ∉ q.values := by
  intro hm
  obtain ⟨v, hv⟩ := mem_iff_exists.mp hm
  obtain ⟨rule, hr, -⟩ := h.gives hn hv
  exact hrule rule hr

end Progress

end Stencil

import Stencil.Proofs.Resolution.Demand

/-!
Which names can be computed.

A name is grounded if it has a value or a rule that refers to grounded names only. Demands succeed
exactly for grounded names, and no run makes a name grounded that was not. The names that wait
during a demand do no harm: each of them needs the name that is asked for, and a grounded name
never needs itself.
-/

namespace Stencil

open Relation Progress

namespace Template

variable {t : Template} {ids : IdSource} {values : Bindings} {waiting : List String}
  {name : String} {p q : Progress}

inductive Grounded (t : Template) (values : Bindings) : String → Prop
  | value {name : String} (h : name ∈ values) : Grounded t values name
  | rule {name : String} {rule : Rule} (hrule : t.rule? name = some rule)
      (h : ∀ n ∈ rule.references, Grounded t values n) : Grounded t values name

/-- Computing the first name asks for the second one. -/
def Needs (t : Template) (values : Bindings) (name n : String) : Prop :=
  name ∉ values ∧ ∃ rule, t.rule? name = some rule ∧ n ∈ rule.references

lemma Grounded.not_needs_self (h : t.Grounded values name) :
    ¬ TransGen (t.Needs values) name name := by
  induction h with
  | value h =>
    intro hc
    obtain ⟨n, ⟨hn, -⟩, -⟩ := TransGen.head'_iff.mp hc
    exact hn h
  | rule hrule _ ih =>
    -- a cycle through a name is also one through the next name on it
    intro hc
    obtain ⟨n, hneeds, hback⟩ := TransGen.head'_iff.mp hc
    obtain ⟨-, rule', hrule', hn⟩ := id hneeds
    obtain rfl := Option.some.inj (hrule.symm.trans hrule')
    exact ih n hn (TransGen.tail' hback hneeds)

/-- Only rules that can be applied are looked at: of a name without a value all references of its
rule are grounded. -/
lemma Grounded.exists_rule (h : t.Grounded values name) (hn : name ∉ values) :
    ∃ rule, t.rule? name = some rule ∧ ∀ n ∈ rule.references, t.Grounded values n := by
  cases h with
  | value h => exact absurd h hn
  | rule hrule h => exact ⟨_, hrule, h⟩

lemma Grounded.trans {values' : Bindings} (h : t.Grounded values name)
    (hv : ∀ n ∈ values, t.Grounded values' n) : t.Grounded values' name := by
  induction h with
  | value h => exact hv _ h
  | rule hrule _ ih => exact .rule hrule ih

/-- Runs compute grounded names only. -/
lemma grounded_of_run (h : Run ids (t.Applies waiting) p q) :
    ∀ n ∈ q.values, t.Grounded p.values n := by
  induction h with
  | refl => exact fun n hn => .value hn
  | tail _ hs ih =>
    obtain @⟨name, rule, ⟨hrule, -⟩, -, hready⟩ := hs
    intro n hn
    rcases Std.ExtTreeMap.mem_insert.mp hn with heq | hn
    · rw [Std.compare_eq_iff_eq] at heq
      exact heq ▸ .rule hrule fun m hm => ih m (hready m hm)
    · exact ih n hn

lemma grounded_run_iff (h : Run ids (t.Applies waiting) p q) :
    t.Grounded q.values name ↔ t.Grounded p.values name :=
  ⟨fun hg => hg.trans (grounded_of_run h), fun hg => hg.trans fun _ hn => .value (h.extends.mem hn)⟩

end Template

/-! ### Demands that succeed -/

variable {ids : IdSource} {rules : String → Rule → Prop} {values : Bindings}
  {ask : String → Progress → Attempt String} {p : Progress}

/-- Asking for the name succeeds, whatever else has a value besides the names of a table. -/
def Succeeds (ask : String → Progress → Attempt String) (values : Bindings)
    (name : String) : Prop :=
  ∀ p : Progress, (∀ n ∈ values, n ∈ p.values) → ∃ v q, ask name p = (.ok v, q)

namespace Asks

lemma askAll_ok (h : Asks ids rules ask) {names : List String}
    (hs : ∀ n ∈ names, Succeeds ask values n) (hp : ∀ n ∈ values, n ∈ p.values) :
    ∃ q, askAll ask names p = (.ok (), q) := by
  induction names generalizing p with
  | nil => exact ⟨p, rfl⟩
  | cons n names ih =>
    obtain ⟨v, q, hq⟩ := hs n List.mem_cons_self p hp
    have hext := (h.run hq).extends
    simp only [askAll, hq]
    exact ih (fun m hm => hs m (List.mem_cons_of_mem _ hm)) fun m hm => hext.mem (hp m hm)

lemma interpolateWith_ok (h : Asks ids rules ask) {format : String}
    (hs : ∀ n ∈ Placeholder.references format, Succeeds ask values n)
    (hp : ∀ n ∈ values, n ∈ p.values) :
    ∃ text q, interpolateWith ask format p = (.ok text, q) := by
  obtain ⟨q, hq⟩ := h.askAll_ok hs hp
  exact ⟨Placeholder.substitute (q.values[·]?) format, q, by simp only [interpolateWith, hq]⟩

lemma eval_ok (h : Asks ids rules ask) (name : String) {rule : Rule}
    (hs : ∀ n ∈ rule.references, Succeeds ask values n) (hp : ∀ n ∈ values, n ∈ p.values) :
    ∃ v q, rule.eval ids ask name p = (.ok v, q) := by
  cases rule with
  | constant value => exact ⟨value, p, rfl⟩
  | identifier => exact ⟨_, _, rfl⟩
  | formatted format transform =>
    obtain ⟨text, q, hq⟩ := h.interpolateWith_ok hs hp
    exact ⟨transform.apply text, q, by simp only [Rule.eval, hq]⟩

lemma compute_ok (h : Asks ids rules ask) {kind : KeyKind} {k : Key} {rule : Rule}
    (hrule : Rule.ofKey kind k = .ok rule) (hs : ∀ n ∈ rule.references, Succeeds ask values n)
    (hp : ∀ n ∈ values, n ∈ p.values) : ∃ v q, k.compute ids ask kind p = (.ok v, q) := by
  obtain ⟨v, q, hq⟩ := h.eval_ok k.name hs hp
  exact ⟨v, q.enter k.name v, by simp only [Key.compute, hrule, hq]⟩

end Asks

namespace Template

variable {t : Template} {fixed waiting : List String} {name : String}

/-- What has a rule is defined by a key of a known kind. -/
lemma exists_key_of_rule? {rule : Rule} (h : t.rule? name = some rule) :
    ∃ k kind, t.key? name = some k ∧ k.kind? = some kind ∧ Rule.ofKey kind k = .ok rule := by
  simp only [rule?, Option.bind_eq_bind, Option.bind_eq_some_iff] at h
  obtain ⟨k, hk, kind, hkind, hrule⟩ := h
  refine ⟨k, kind, hk, hkind, ?_⟩
  cases hr : Rule.ofKey kind k with
  | error e => simp [hr, Except.toOption] at hrule
  | ok r => simpa [hr, Except.toOption] using hrule

/-- **Completeness**: demands for grounded names succeed, if all that waits needs them. -/
theorem Grounded.succeeds (ids : IdSource) (hg : t.Grounded values name)
    (hw : ∀ w ∈ waiting, TransGen (t.Needs values) w name) :
    Succeeds (t.demand ids fixed waiting) values name := by
  induction hg generalizing waiting with
  | value h =>
    intro p hp
    obtain ⟨v, hv⟩ := mem_iff_exists.mp (hp _ h)
    exact ⟨v, p, demand_of_value hv⟩
  | @rule name rule hrule h ih =>
    intro p hp
    cases hv : p.values[name]? with
    | some v => exact ⟨v, p, demand_of_value hv⟩
    | none =>
      obtain ⟨k, kind, hk, hkind, hr⟩ := exists_key_of_rule? hrule
      have hidle : name ∉ waiting := fun hm => (Grounded.rule hrule h).not_needs_self (hw _ hm)
      rw [demand_of_kind? hv hk hkind, if_neg hidle]
      refine (demand_asks t ids fixed (name :: waiting)).compute_ok hr (fun n hn => ih n hn ?_) hp
      have hneeds : t.Needs values name n :=
        ⟨fun hm => getElem?_eq_none_iff.mp hv (hp _ hm), rule, hrule, hn⟩
      intro w hmem
      rcases List.mem_cons.mp hmem with rfl | hmem
      · exact .single hneeds
      · exact (hw w hmem).tail hneeds

/-- **A demand succeeds exactly for a grounded name.** -/
theorem demand_ok_iff (ids : IdSource) :
    (∃ v q, t.demand ids fixed [] name p = (.ok v, q)) ↔ t.Grounded p.values name := by
  constructor
  · rintro ⟨v, q, h⟩
    have hasks := demand_asks t ids fixed []
    exact grounded_of_run (hasks.run h) name (mem_iff_exists.mpr ⟨v, hasks.found h⟩)
  · intro hg
    exact hg.succeeds ids (by simp) p fun _ h => h

end Template

end Stencil

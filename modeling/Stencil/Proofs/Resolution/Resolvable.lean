import Mathlib.Data.Fintype.Card
import Mathlib.Data.Set.Finite.Basic
import Stencil.Proofs.Resolution.Solution

/-!
When a template can be resolved.

What a template and the answers have to offer is said without running anything: all that is chosen
exists, all that a rule reads is there, all that is referred to is known, and the keys that are to
be computed do not refer to one another in a cycle. A resolution succeeds exactly then.
-/

namespace Stencil

open Relation

namespace Template

variable {t : Template} {a : Answers}

/-- The user or a chosen case gives the name a value. -/
def Given (t : Template) (a : Answers) (name : String) : Prop :=
  name ∈ a.inputs ∨ name ∈ (t.settings a.cases.toList).map Prod.fst

/-- The name is given a value, or is the name of a key. -/
def Known (t : Template) (a : Answers) (name : String) : Prop :=
  t.Given a name ∨ name ∈ t.keyNames

/-- The key is of a computed kind, and nothing gives it a value. -/
def Computes (t : Template) (a : Answers) (kind : KeyKind) (k : Key) : Prop :=
  k ∈ t.keys ∧ k.kind? = some kind ∧ kind ≠ .input ∧ ¬ t.Given a k.name

/-- The format of a key that is to be computed refers to another such key. -/
def RefersTo (t : Template) (a : Answers) (name n : String) : Prop :=
  ∃ kind k kind' k', t.Computes a kind k ∧ t.Computes a kind' k' ∧ k.name = name ∧ k'.name = n ∧
    n ∈ k.referencesAs kind

/-- The template and the answers leave nothing open. -/
structure Resolvable (t : Template) (a : Answers) : Prop where
  cases : ∀ c ∈ a.cases.toList, t.CanApply c
  kinds : ∀ k ∈ t.keys, k.kind?.isSome
  inputs : ∀ k ∈ t.keys, k.kind? = some .input → t.Given a k.name
  attributes : ∀ kind k, t.Computes a kind k →
    ∀ attr ∈ kind.requiredAttributes, (k.attr? attr).isSome
  references : ∀ kind k, t.Computes a kind k → ∀ n ∈ k.referencesAs kind, t.Known a n
  renames : ∀ f ∈ t.folders, ∀ n ∈ Placeholder.references f.rename, t.Known a n
  acyclic : ∀ n, ¬ TransGen (t.RefersTo a) n n

/-- The values that are there before any key is computed. -/
abbrev base (t : Template) (a : Answers) : Bindings := (t.opened a.inputs a.cases.toList).values

lemma mem_base_iff {n : String} : n ∈ t.base a ↔ t.Given a n := mem_opened_iff

lemma Computes.rule?_eq (hn : t.keyNames.Nodup) {kind : KeyKind} {k : Key}
    (h : t.Computes a kind k) : t.rule? k.name = (Rule.ofKey kind k).toOption :=
  Template.rule?_eq (key?_name hn h.1) h.2.1

/-! ### What grounded keys have -/

lemma exists_rule_of_grounded (hn : t.keyNames.Nodup) {kind : KeyKind} {k : Key}
    (h : t.Computes a kind k) (hg : t.Grounded (t.base a) k.name) :
    ∃ rule, Rule.ofKey kind k = .ok rule ∧ ∀ n ∈ rule.references, t.Grounded (t.base a) n := by
  obtain ⟨rule, hrule, hrefs⟩ := hg.exists_rule (mem_base_iff.not.mpr h.2.2.2)
  obtain ⟨k', kind', hk', hkind', hof⟩ := exists_key_of_rule? hrule
  obtain rfl := Option.some.inj ((key?_name hn h.1).symm.trans hk')
  obtain rfl := Option.some.inj (h.2.1.symm.trans hkind')
  exact ⟨rule, hof, hrefs⟩

lemma Grounded.known {n : String} (h : t.Grounded (t.base a) n) : t.Known a n := by
  by_cases hb : n ∈ t.base a
  · exact .inl (mem_base_iff.mp hb)
  · obtain ⟨rule, hrule, -⟩ := h.exists_rule hb
    obtain ⟨k, kind, hk, -⟩ := exists_key_of_rule? hrule
    exact .inr (List.mem_map.mpr ⟨k, mem_keys_of_key? hk, name_of_key? hk⟩)

lemma RefersTo.needs (hn : t.keyNames.Nodup) (hg : ∀ k ∈ t.keys, t.Grounded (t.base a) k.name)
    {name n : String} (h : t.RefersTo a name n) : t.Needs (t.base a) name n := by
  obtain ⟨kind, k, -, -, hk, -, rfl, -, href⟩ := h
  obtain ⟨rule, hof, -⟩ := exists_rule_of_grounded hn hk (hg k hk.1)
  refine ⟨mem_base_iff.not.mpr hk.2.2.2, rule, ?_, ?_⟩
  · rw [hk.rule?_eq hn, hof]
    rfl
  · rwa [Rule.references_ofKey hof]

lemma acyclic_of_grounded (hn : t.keyNames.Nodup)
    (hg : ∀ k ∈ t.keys, t.Grounded (t.base a) k.name) (n : String) :
    ¬ TransGen (t.RefersTo a) n n := by
  intro hcycle
  obtain ⟨m, ⟨kind, k, -, -, hk, -, rfl, -⟩, -⟩ := TransGen.head'_iff.mp hcycle
  exact (hg k hk.1).not_needs_self
    (TransGen.mono (fun _ _ h => RefersTo.needs hn hg h) _ _ hcycle)

/-! ### Why acyclic keys are grounded -/

/-- Of the finitely many keys, those that are referred to come before those that refer to them. -/
lemma wellFounded_of_acyclic (hac : ∀ n, ¬ TransGen (t.RefersTo a) n n) :
    WellFounded fun m n : {n // n ∈ t.keyNames} => t.RefersTo a n m := by
  have hwf : WellFounded fun m n : {n // n ∈ t.keyNames} => TransGen (t.RefersTo a) n m := by
    have : IsTrans {n // n ∈ t.keyNames} fun m n => TransGen (t.RefersTo a) n m :=
      ⟨fun _ _ _ h h' => h'.trans h⟩
    have : Std.Irrefl fun m n : {n // n ∈ t.keyNames} => TransGen (t.RefersTo a) n m :=
      ⟨fun n => hac n⟩
    have : Finite {n // n ∈ t.keyNames} := (List.finite_toSet t.keyNames).to_subtype
    exact Finite.wellFounded_of_trans_of_irrefl _
  exact Subrelation.wf (fun h => TransGen.single h) hwf

lemma Resolvable.computes (h : t.Resolvable a) {k : Key} (hk : k ∈ t.keys)
    (hgiven : ¬ t.Given a k.name) : ∃ kind, t.Computes a kind k := by
  obtain ⟨kind, hkind⟩ := Option.isSome_iff_exists.mp (h.kinds k hk)
  refine ⟨kind, hk, hkind, ?_, hgiven⟩
  rintro rfl
  exact hgiven (h.inputs k hk hkind)

lemma Resolvable.grounded (hn : t.keyNames.Nodup) (h : t.Resolvable a) :
    ∀ k ∈ t.keys, t.Grounded (t.base a) k.name := by
  suffices hall : ∀ n : {n // n ∈ t.keyNames}, t.Grounded (t.base a) n from
    fun k hk => hall ⟨k.name, List.mem_map_of_mem hk⟩
  intro n
  induction n using (wellFounded_of_acyclic h.acyclic).induction with
  | _ n ih =>
    obtain ⟨n, hmem⟩ := n
    obtain ⟨k, hk, rfl⟩ := List.mem_map.mp hmem
    by_cases hgiven : t.Given a k.name
    · exact .value (mem_base_iff.mpr hgiven)
    obtain ⟨kind, hcomp⟩ := h.computes hk hgiven
    obtain ⟨rule, hof⟩ := (Rule.exists_ofKey_iff hcomp.2.2.1).mpr (h.attributes kind k hcomp)
    refine .rule (by rw [hcomp.rule?_eq hn, hof]; rfl) fun m hm => ?_
    rw [Rule.references_ofKey hof] at hm
    by_cases hgiven' : t.Given a m
    · exact .value (mem_base_iff.mpr hgiven')
    -- a name that is known and not given is the name of a key that comes before this one
    obtain ⟨k', hk', rfl⟩ := List.mem_map.mp ((h.references kind k hcomp m hm).resolve_left hgiven')
    obtain ⟨kind', hcomp'⟩ := h.computes hk' hgiven'
    exact ih ⟨k'.name, List.mem_map_of_mem hk'⟩ ⟨kind, k, kind', k', hcomp, hcomp', rfl, rfl, hm⟩

/-- A resolution succeeds exactly if all keys are grounded in what is given, and the cases, the
types and the folders are in order. -/
lemma resolve_ok_iff_grounded (ids : IdSource) (hn : t.keyNames.Nodup) :
    (∃ r, t.resolve ids a = .ok r) ↔ (∀ c ∈ a.cases.toList, t.CanApply c) ∧
      (∀ k ∈ t.keys, k.kind?.isSome) ∧ (∀ k ∈ t.keys, t.Grounded (t.base a) k.name) ∧
      ∀ f ∈ t.folders, ∀ n ∈ Placeholder.references f.rename, t.Known a n := by
  rw [← and_assoc (c := ∀ f ∈ t.folders, _), ← resolveAll_opened_ok_iff ids hn]
  have hknown : ∀ {s}, (t.opened a.inputs a.cases.toList).resolveAll ids a.inputs = (.ok (), s) →
      ∀ n, n ∈ s.values ↔ t.Known a n := fun h n => by
    rw [mem_values_iff (advances_of_resolveAll hn h) (complete_of_resolveAll hn h), mem_base_iff,
      Known]
  simp only [resolve_eq_ok_iff hn]
  constructor
  · rintro ⟨-, hcan, s, hall, hrenames, -⟩
    exact ⟨hcan, ⟨s, hall⟩, fun f hf n hmem => (hknown hall n).mp (hrenames f hf n hmem)⟩
  · rintro ⟨hcan, ⟨s, hall⟩, hrenames⟩
    exact ⟨_, hcan, s, hall, fun f hf n hmem => (hknown hall n).mpr (hrenames f hf n hmem), rfl⟩

/-- **A template can be resolved** exactly if it and the answers leave nothing open. -/
theorem resolve_ok_iff_resolvable (ids : IdSource) (hn : t.keyNames.Nodup) :
    (∃ r, t.resolve ids a = .ok r) ↔ t.Resolvable a := by
  rw [resolve_ok_iff_grounded ids hn]
  constructor
  · rintro ⟨hcan, hkinds, hg, hrenames⟩
    refine ⟨hcan, hkinds, fun k hk hkind => ?_, fun kind k hk => ?_, fun kind k hk n hmem => ?_,
      hrenames, acyclic_of_grounded hn hg⟩
    · exact mem_base_iff.mp ((grounded_input_iff hn hk hkind).mp (hg k hk))
    · obtain ⟨rule, hof, -⟩ := exists_rule_of_grounded hn hk (hg k hk.1)
      exact (Rule.exists_ofKey_iff hk.2.2.1).mp ⟨rule, hof⟩
    · obtain ⟨rule, hof, hrefs⟩ := exists_rule_of_grounded hn hk (hg k hk.1)
      rw [← Rule.references_ofKey hof] at hmem
      exact (hrefs n hmem).known
  · intro h
    exact ⟨h.cases, h.kinds, h.grounded hn, h.renames⟩

theorem library_resolvable : library.keyNames.Nodup ∧ library.Resolvable .library := by
  have hn : library.keyNames.Nodup := by decide
  exact ⟨hn, (resolve_ok_iff_resolvable _ hn).mp exists_resolve_library⟩

end Template

end Stencil

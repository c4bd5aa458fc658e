import Stencil.Proofs.Resolution.Filling

/-!
Demands for names.

A demand is a run of the rules of the names that do not wait, whether or not it succeeds, and what
it answers is the value that the name has afterwards. Values that were computed are merged into the
table once more, which changes nothing.
-/

namespace Stencil

open Progress

variable {ids : IdSource} {rules : String → Rule → Prop}
  {ask : String → Progress → Attempt String} {p q : Progress}

/-! ### Success -/

/-- A format has to be filled in, and what this comes to is transformed. -/
lemma Rule.eval_formatted_eq_ok_iff {name format value : String} {transform : Transform} :
    (Rule.formatted format transform).eval ids ask name p = (.ok value, q) ↔
      ∃ text, interpolateWith ask format p = (.ok text, q) ∧ value = transform.apply text := by
  rw [Rule.eval]
  rcases interpolateWith ask format p with ⟨e | text, p'⟩
  · simp
  · simp [and_comm, eq_comm]

/-- A key is computed by its rule, and the value is entered under its name. -/
lemma Key.compute_eq_ok_iff {kind : KeyKind} {k : Key} {value : String} :
    k.compute ids ask kind p = (.ok value, q) ↔
      ∃ rule p', Rule.ofKey kind k = .ok rule ∧ rule.eval ids ask k.name p = (.ok value, p') ∧
        q = p'.enter k.name value := by
  unfold compute
  cases Rule.ofKey kind k with
  | error e => simp
  | ok rule =>
    rcases heval : rule.eval ids ask k.name p with ⟨e | v, p'⟩
    · simp [heval]
    · simp only [Except.ok.injEq, Prod.mk.injEq, exists_and_left, exists_eq_left', heval]
      constructor
      · rintro ⟨rfl, rfl⟩
        exact ⟨p', ⟨rfl, rfl⟩, rfl⟩
      · rintro ⟨_, ⟨rfl, rfl⟩, rfl⟩
        exact ⟨rfl, rfl⟩

/-! ### Demands as runs -/

/-- Asking is a run, and an answer is the value that the name has afterwards. -/
structure Asks (ids : IdSource) (rules : String → Rule → Prop)
    (ask : String → Progress → Attempt String) : Prop where
  run : ∀ {n p r q}, ask n p = (r, q) → Run ids rules p q
  found : ∀ {n p v q}, ask n p = (.ok v, q) → q.values[n]? = some v

namespace Asks

lemma run_askAll (h : Asks ids rules ask) {names : List String} {r : Except ResolveError Unit}
    (ha : askAll ask names p = (r, q)) : Run ids rules p q := by
  induction names generalizing p with
  | nil =>
    obtain ⟨-, rfl⟩ := Prod.mk.inj ha
    exact .refl
  | cons n names ih =>
    unfold askAll at ha
    split at ha
    · next hn => exact (h.run hn).trans (ih ha)
    · next hn =>
      obtain ⟨-, rfl⟩ := Prod.mk.inj ha
      exact h.run hn

lemma found_askAll (h : Asks ids rules ask) {names : List String}
    (ha : askAll ask names p = (.ok (), q)) : ∀ n ∈ names, n ∈ q.values := by
  induction names generalizing p with
  | nil => simp
  | cons n names ih =>
    unfold askAll at ha
    split at ha
    · next hn =>
      have hfirst := mem_iff_exists.mpr ⟨_, h.found hn⟩
      intro m hm
      rcases List.mem_cons.mp hm with rfl | hm
      · exact (h.run_askAll ha).extends.mem hfirst
      · exact ih ha m hm
    · simp at ha

lemma run_interpolateWith (h : Asks ids rules ask) {format : String}
    {r : Except ResolveError String} (hi : interpolateWith ask format p = (r, q)) :
    Run ids rules p q := by
  unfold interpolateWith at hi
  split at hi <;> next ha =>
    obtain ⟨-, rfl⟩ := Prod.mk.inj hi
    exact h.run_askAll ha

lemma found_interpolateWith (h : Asks ids rules ask) {format text : String}
    (hi : interpolateWith ask format p = (.ok text, q)) :
    (∀ n ∈ Placeholder.references format, n ∈ q.values) ∧
      text = Placeholder.substitute (q.values[·]?) format := by
  unfold interpolateWith at hi
  split at hi
  · next ha =>
    simp only [Prod.mk.injEq, Except.ok.injEq] at hi
    obtain ⟨rfl, rfl⟩ := hi
    exact ⟨h.found_askAll ha, rfl⟩
  · simp at hi

/-- A rule first asks for all that it refers to, and gives its value then. -/
lemma found_eval (h : Asks ids rules ask) {name value : String} {rule : Rule}
    (he : rule.eval ids ask name p = (.ok value, q)) :
    ∃ m, Run ids rules p m ∧ (∀ n ∈ rule.references, n ∈ m.values) ∧
      q.enter name value = m.fill ids name rule := by
  cases rule with
  | constant c =>
    simp only [Rule.eval, Prod.mk.injEq, Except.ok.injEq] at he
    obtain ⟨rfl, rfl⟩ := he
    exact ⟨p, .refl, by simp [Rule.references], rfl⟩
  | identifier =>
    simp only [Rule.eval, Prod.mk.injEq, Except.ok.injEq] at he
    obtain ⟨rfl, rfl⟩ := he
    exact ⟨p, .refl, by simp [Rule.references], rfl⟩
  | formatted format transform =>
    obtain ⟨text, hi, rfl⟩ := Rule.eval_formatted_eq_ok_iff.mp he
    obtain ⟨hready, rfl⟩ := h.found_interpolateWith hi
    exact ⟨_, h.run_interpolateWith hi, hready, rfl⟩

lemma run_eval_error (h : Asks ids rules ask) {name : String} {rule : Rule} {e : ResolveError}
    (he : rule.eval ids ask name p = (.error e, q)) : Run ids rules p q := by
  cases rule with
  | constant c => simp [Rule.eval] at he
  | identifier => simp [Rule.eval] at he
  | formatted format transform =>
    simp only [Rule.eval] at he
    split at he
    · simp at he
    · next hi =>
      obtain ⟨-, rfl⟩ := Prod.mk.inj he
      exact h.run_interpolateWith hi

/-- Computing a key applies its rule last, if no other key that is asked for on the way is it. -/
lemma run_compute (h : Asks ids rules ask) {kind : KeyKind} {k : Key}
    {r : Except ResolveError String} (hnew : k.name ∉ p.values)
    (hother : ∀ rule, ¬ rules k.name rule) (hc : k.compute ids ask kind p = (r, q)) :
    Run ids (fun n rule => rules n rule ∨ n = k.name ∧ Rule.ofKey kind k = .ok rule) p q := by
  unfold Key.compute at hc
  split at hc
  · obtain ⟨-, rfl⟩ := Prod.mk.inj hc
    exact .refl
  · next rule hrule =>
    split at hc
    · next he =>
      obtain ⟨-, rfl⟩ := Prod.mk.inj hc
      obtain ⟨m, hrun, hready, heq⟩ := h.found_eval he
      rw [heq]
      exact (hrun.mono fun _ _ => .inl).tail
        (.fill (.inr ⟨rfl, hrule⟩) (hrun.not_mem hnew hother) hready)
    · next he =>
      obtain ⟨-, rfl⟩ := Prod.mk.inj hc
      exact (h.run_eval_error he).mono fun _ _ => .inl

end Asks

namespace Key

lemma found_compute {kind : KeyKind} {k : Key} {value : String}
    (hc : k.compute ids ask kind p = (.ok value, q)) : q.values[k.name]? = some value := by
  obtain ⟨rule, p', -, -, rfl⟩ := compute_eq_ok_iff.mp hc
  simp [enter]

/-- A value that was computed is in the table already, so that merging it changes nothing. -/
lemma merge_compute (fixed : List String) (kind : KeyKind) (k : Key) :
    k.merge fixed (k.compute ids ask kind p) = k.compute ids ask kind p := by
  rcases hc : k.compute ids ask kind p with ⟨e | value, q⟩
  · rfl
  · have hfound := found_compute hc
    have hmerge : q.enterAll fixed ((∅ : Bindings).insert k.name value) = q := by
      refine enterAll_eq_self fun n v hv _ => ?_
      rw [Std.ExtTreeMap.getElem?_insert] at hv
      split at hv
      · next hn => rw [← Std.compare_eq_iff_eq.mp hn, hfound, hv]
      · simp at hv
    simp only [merge, hmerge, hfound]

end Key

namespace Template

variable {t : Template} {fixed waiting : List String} {name : String}

/-- The rules that apply while some names wait. -/
def Applies (t : Template) (waiting : List String) (name : String) (rule : Rule) : Prop :=
  t.rule? name = some rule ∧ name ∉ waiting

lemma rule?_eq {k : Key} {kind : KeyKind} (hk : t.key? name = some k)
    (hkind : k.kind? = some kind) : t.rule? name = (Rule.ofKey kind k).toOption := by
  simp [rule?, hk, hkind]

lemma demand_of_value {v : String} (hv : p.values[name]? = some v) :
    t.demand ids fixed waiting name p = (.ok v, p) := by
  rw [demand]; simp only [hv]

lemma demand_of_key?_eq_none (hv : p.values[name]? = none) (hk : t.key? name = none) :
    t.demand ids fixed waiting name p = (.error (.undefinedSymbol name), p) := by
  rw [demand]; simp only [hv]; split
  · rfl
  · simp_all

lemma demand_of_kind?_eq_none {k : Key} (hv : p.values[name]? = none)
    (hk : t.key? name = some k) (hkind : k.kind? = none) :
    t.demand ids fixed waiting name p = (.error (.unknownKind k.name k.typeTag), p) := by
  rw [demand]; simp only [hv]; split
  · simp_all
  · next hk' =>
    obtain rfl := Option.some.inj (hk.symm.trans hk')
    simp only [hkind]

lemma demand_of_kind? {k : Key} {kind : KeyKind} (hv : p.values[name]? = none)
    (hk : t.key? name = some k) (hkind : k.kind? = some kind) :
    t.demand ids fixed waiting name p =
      if name ∈ waiting then (.error (.cyclicReference (cycle waiting name)), p)
      else k.compute ids (t.demand ids fixed (name :: waiting)) kind p := by
  rw [demand]; simp only [hv]; split
  · simp_all
  · next hk' =>
    obtain rfl := Option.some.inj (hk.symm.trans hk')
    simp only [hkind, dite_eq_ite, Key.merge_compute]

lemma demand_spec {r : Except ResolveError String}
    (h : t.demand ids fixed waiting name p = (r, q)) :
    Run ids (t.Applies waiting) p q ∧ ∀ v, r = .ok v → q.values[name]? = some v := by
  induction waiting, name, p using demand.induct t generalizing r q with
  | case1 waiting name p value hv =>
    rw [demand_of_value hv] at h
    obtain ⟨rfl, rfl⟩ := Prod.mk.inj h
    exact ⟨.refl, fun v h => by rw [hv, Except.ok.inj h]⟩
  | case2 waiting name p hv hk =>
    rw [demand_of_key?_eq_none hv hk] at h
    obtain ⟨rfl, rfl⟩ := Prod.mk.inj h
    exact ⟨.refl, by simp⟩
  | case3 waiting name p hv k hk hkind =>
    rw [demand_of_kind?_eq_none hv hk hkind] at h
    obtain ⟨rfl, rfl⟩ := Prod.mk.inj h
    exact ⟨.refl, by simp⟩
  | case4 waiting name p hv k hk kind hkind hw =>
    rw [demand_of_kind? hv hk hkind, if_pos hw] at h
    obtain ⟨rfl, rfl⟩ := Prod.mk.inj h
    exact ⟨.refl, by simp⟩
  | case5 waiting name p hv k hk kind hkind hw ih =>
    rw [demand_of_kind? hv hk hkind, if_neg hw] at h
    obtain rfl := name_of_key? hk
    -- what is asked for on the way cannot compute this key, since it waits
    have hasks : Asks ids (t.Applies (k.name :: waiting))
        (t.demand ids fixed (k.name :: waiting)) :=
      ⟨fun ha => (ih _ _ ha).1, fun ha => (ih _ _ ha).2 _ rfl⟩
    have hrun := hasks.run_compute (getElem?_eq_none_iff.mp hv) (by simp [Applies]) h
    refine ⟨hrun.mono ?_, fun v hr => Key.found_compute (hr ▸ h)⟩
    rintro n rule (⟨hr, hn⟩ | ⟨rfl, hr⟩)
    · exact ⟨hr, fun h => hn (List.mem_cons_of_mem _ h)⟩
    · exact ⟨by rw [rule?_eq hk hkind, hr]; rfl, hw⟩

/-- **Demands are runs** of the rules of the names that do not wait, even if they fail. -/
theorem demand_asks (t : Template) (ids : IdSource) (fixed waiting : List String) :
    Asks ids (t.Applies waiting) (t.demand ids fixed waiting) :=
  ⟨fun h => (demand_spec h).1, fun h => (demand_spec h).2 _ rfl⟩

end Template

end Stencil

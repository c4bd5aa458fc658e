import Stencil.Proofs.Resolution.Session

/-!
Handling keys that are handed in.

A key is handled as if it were of the kind that is given with it. It need not be a key of the
template, nor be of that kind, and several keys may have one name. Handling keys is a run all the
same, of the rules of the template and of those that the keys have under their kinds, and all that
it comes to is in the table then.
-/

namespace Stencil

open Progress

namespace Template

variable {t : Template}

/-- The rules that apply while keys are handled, each with the kind that it is taken to be. -/
def AppliesTo (t : Template) (handed : List (KeyKind × Key)) (name : String)
    (rule : Rule) : Prop :=
  t.rule? name = some rule ∨ ∃ h ∈ handed, h.2.name = name ∧ Rule.ofKey h.1 h.2 = .ok rule

/-- The keys of the template, with their kinds, of several kinds. -/
def keysOfKinds (t : Template) (kinds : List KeyKind) : List (KeyKind × Key) :=
  kinds.flatMap fun kind => (t.keysOfKind kind).map (kind, ·)

lemma AppliesTo.mono {handed handed' : List (KeyKind × Key)} (hsub : handed ⊆ handed')
    {name : String} {rule : Rule} (h : t.AppliesTo handed name rule) :
    t.AppliesTo handed' name rule := by
  rcases h with hrule | ⟨k, hk, hname, hrule⟩
  · exact .inl hrule
  · exact .inr ⟨k, hsub hk, hname, hrule⟩

/-- The template's own keys, under their own kinds, bring no further rules. -/
lemma AppliesTo.of_owned {handed : List (KeyKind × Key)} (hown : ∀ h ∈ handed, t.Owns h.1 h.2)
    {name : String} {rule : Rule} (h : t.AppliesTo handed name rule) :
    t.Applies [] name rule := by
  rcases h with hrule | ⟨⟨kind, k⟩, hk, rfl, hrule⟩
  · exact ⟨hrule, by simp⟩
  · refine ⟨?_, by simp⟩
    rw [rule?_eq (hown _ hk).1 (hown _ hk).2, hrule]
    rfl

lemma owns_keysOfKinds (hn : t.keyNames.Nodup) (kinds : List KeyKind) :
    ∀ h ∈ t.keysOfKinds kinds, t.Owns h.1 h.2 := by
  intro h hmem
  obtain ⟨kind, -, hmem⟩ := List.mem_flatMap.mp hmem
  obtain ⟨k, hk, rfl⟩ := List.mem_map.mp hmem
  exact owns_keysOfKind hn kind k hk

end Template

namespace Session

variable {ids : IdSource} {s s' s'' : Session} {handed handed' : List (KeyKind × Key)}

/-- The later session has made a run of the rules of its template and of the keys that were handed
in, and is else the same. -/
structure Proceeds (s : Session) (ids : IdSource) (handed : List (KeyKind × Key))
    (s' : Session) : Prop where
  template : s'.template = s.template
  overridden : s'.overridden = s.overridden
  run : Run ids (s.template.AppliesTo handed) s.progress s'.progress

namespace Proceeds

lemma refl (ids : IdSource) (handed : List (KeyKind × Key)) (s : Session) :
    s.Proceeds ids handed s := ⟨rfl, rfl, .refl⟩

lemma trans (h : s.Proceeds ids handed s') (h' : s'.Proceeds ids handed s'') :
    s.Proceeds ids handed s'' :=
  ⟨h'.template.trans h.template, h'.overridden.trans h.overridden,
    h.run.trans (h.template ▸ h'.run)⟩

lemma mono (hsub : handed ⊆ handed') (h : s.Proceeds ids handed s') :
    s.Proceeds ids handed' s' :=
  ⟨h.template, h.overridden, h.run.mono fun _ _ => Template.AppliesTo.mono hsub⟩

lemma extends_values (h : s.Proceeds ids handed s') : s'.values.Extends s.values := h.run.extends

lemma advances (hown : ∀ h ∈ handed, s.template.Owns h.1 h.2) (h : s.Proceeds ids handed s') :
    s.Advances ids s' :=
  ⟨h.template, h.overridden, h.run.mono fun _ _ => Template.AppliesTo.of_owned hown⟩

end Proceeds

lemma Advances.proceeds (handed : List (KeyKind × Key)) (h : s.Advances ids s') :
    s.Proceeds ids handed s' :=
  ⟨h.template, h.overridden, h.run.mono fun _ _ hr => .inl hr.1⟩

/-! ### One key -/

lemma evaluate_of_value {kind : KeyKind} {k : Key} {v : String}
    (hv : s.values[k.name]? = some v) : s.evaluate ids kind k = (.ok v, s) := by
  simp only [evaluate, hv]

lemma evaluate_proceeds {kind : KeyKind} {k : Key} {r : Except ResolveError String}
    (h : s.evaluate ids kind k = (r, s')) : s.Proceeds ids [(kind, k)] s' := by
  unfold evaluate at h
  split at h
  · obtain ⟨-, rfl⟩ := Prod.mk.inj h
    exact .refl ids _ s
  · next hv =>
    obtain ⟨-, rfl⟩ := Prod.mk.inj h
    refine ⟨rfl, rfl, Run.mono ?_ ((Template.demand_asks _ _ _ _).run_compute
      (getElem?_eq_none_iff.mp hv) (by simp [Template.Applies]) rfl)⟩
    rintro n rule (⟨hrule, -⟩ | ⟨rfl, hrule⟩)
    · exact .inl hrule
    · exact .inr ⟨(kind, k), List.mem_singleton_self _, rfl, hrule⟩

lemma value_of_evaluate {kind : KeyKind} {k : Key} {v : String}
    (h : s.evaluate ids kind k = (.ok v, s')) : s'.values[k.name]? = some v := by
  unfold evaluate at h
  split at h
  · next hv =>
    simp only [Prod.mk.injEq, Except.ok.injEq] at h
    obtain ⟨rfl, rfl⟩ := h
    exact hv
  · obtain ⟨hr, rfl⟩ := Prod.mk.inj h
    exact Key.found_compute (Prod.ext hr rfl)

/-! ### Several keys of one kind -/

lemma handle_cons_eq_ok_iff {kind : KeyKind} {k : Key} {ks : List Key} {values : Bindings} :
    s.handle ids kind (k :: ks) = (.ok values, s') ↔ ∃ v s₁ rest,
      s.evaluate ids kind k = (.ok v, s₁) ∧ s₁.handle ids kind ks = (.ok rest, s') ∧
        rest.insertIfNew k.name v = values := by
  rw [handle]
  rcases s.evaluate ids kind k with ⟨e | v, s₁⟩
  · simp
  · dsimp only
    rcases hr : s₁.handle ids kind ks with ⟨e | rest, s₂⟩
    · simp [hr]
    · simp [hr, and_comm]

lemma handle_proceeds {kind : KeyKind} {ks : List Key} {r : Except ResolveError Bindings}
    (h : s.handle ids kind ks = (r, s')) : s.Proceeds ids (ks.map (kind, ·)) s' := by
  induction ks generalizing s r s' with
  | nil =>
    obtain ⟨-, rfl⟩ := Prod.mk.inj h
    exact .refl ids _ s
  | cons k ks ih =>
    have hfirst : ∀ {r s₁}, s.evaluate ids kind k = (r, s₁) →
        s.Proceeds ids ((k :: ks).map (kind, ·)) s₁ :=
      fun he => (evaluate_proceeds he).mono (by simp)
    unfold handle at h
    split at h
    · next he =>
      obtain ⟨-, rfl⟩ := Prod.mk.inj h
      exact hfirst he
    · next he =>
      split at h <;> next hr =>
        obtain ⟨-, rfl⟩ := Prod.mk.inj h
        exact (hfirst he).trans ((ih hr).mono (List.subset_cons_self _ _))

/-- What handling keys comes to is an excerpt of the table that has all these keys. -/
lemma values_of_handle {kind : KeyKind} {ks : List Key} {values : Bindings}
    (h : s.handle ids kind ks = (.ok values, s')) :
    s'.values.Extends values ∧ ∀ k ∈ ks, k.name ∈ values := by
  induction ks generalizing s values s' with
  | nil =>
    obtain ⟨hr, -⟩ := Prod.mk.inj h
    obtain rfl := Except.ok.inj hr
    exact ⟨fun n v hv => by simp at hv, by simp⟩
  | cons k ks ih =>
    obtain ⟨v, s₁, rest, he, hr, rfl⟩ := handle_cons_eq_ok_iff.mp h
    obtain ⟨hext, hmem⟩ := ih hr
    have hfirst := (handle_proceeds hr).extends_values _ _ (value_of_evaluate he)
    refine ⟨fun n w hw => ?_, List.forall_mem_cons.mpr ⟨?_, fun k hk => ?_⟩⟩
    · rw [Std.ExtTreeMap.getElem?_insertIfNew] at hw
      split at hw
      · next hn => rw [← Std.compare_eq_iff_eq.mp hn.1, hfirst, hw]
      · exact hext n w hw
    · exact Std.ExtTreeMap.mem_insertIfNew_self
    · exact Std.ExtTreeMap.mem_insertIfNew.mpr (.inr (hmem k hk))

/-- The table has all that was handled, so that merging it changes nothing. -/
lemma merge_of_handle {kind : KeyKind} {ks : List Key} {values : Bindings}
    (h : s.handle ids kind ks = (.ok values, s')) : s'.merge values = s' := by
  rw [merge, Progress.enterAll_eq_self fun n v hv _ => (values_of_handle h).1 n v hv]

/-- Keys that were handled are handled again, at any later time, without anything being computed. -/
lemma handle_again {kind : KeyKind} {ks : List Key} {values : Bindings}
    (h : s.handle ids kind ks = (.ok values, s')) (hext : s''.values.Extends s'.values) :
    s''.handle ids kind ks = (.ok values, s'') := by
  induction ks generalizing s values s' with
  | nil =>
    obtain ⟨hr, -⟩ := Prod.mk.inj h
    rw [handle, hr]
  | cons k ks ih =>
    obtain ⟨v, s₁, rest, he, hr, rfl⟩ := handle_cons_eq_ok_iff.mp h
    have hv := (handle_proceeds hr).extends_values _ _ (value_of_evaluate he)
    exact handle_cons_eq_ok_iff.mpr
      ⟨v, s'', rest, evaluate_of_value (hext _ _ hv), ih hr hext, rfl⟩

/-! ### Several kinds -/

/-- Merging what was handled is left out here, since it changes nothing. -/
lemma handleKinds_cons_eq_ok_iff {kind : KeyKind} {kinds : List KeyKind} :
    s.handleKinds ids (kind :: kinds) = (.ok (), s') ↔ ∃ values s₁,
      s.handle ids kind (s.template.keysOfKind kind) = (.ok values, s₁) ∧
        s₁.handleKinds ids kinds = (.ok (), s') := by
  rw [handleKinds]
  rcases hh : s.handle ids kind (s.template.keysOfKind kind) with ⟨e | values, s₁⟩
  · simp
  · simp [merge_of_handle hh]

lemma handleKinds_proceeds {kinds : List KeyKind} {r : Except ResolveError Unit}
    (h : s.handleKinds ids kinds = (r, s')) :
    s.Proceeds ids (s.template.keysOfKinds kinds) s' := by
  induction kinds generalizing s with
  | nil =>
    obtain ⟨-, rfl⟩ := Prod.mk.inj h
    exact .refl ids _ s
  | cons kind kinds ih =>
    have hfirst : ∀ {r s₁}, s.handle ids kind (s.template.keysOfKind kind) = (r, s₁) →
        s.Proceeds ids (s.template.keysOfKinds (kind :: kinds)) s₁ :=
      fun hh => (handle_proceeds hh).mono (by simp [Template.keysOfKinds])
    unfold handleKinds at h
    split at h
    · next hh =>
      obtain ⟨-, rfl⟩ := Prod.mk.inj h
      exact hfirst hh
    · next s₁ hh =>
      rw [merge_of_handle hh] at h
      have ht : s₁.template = s.template := (hfirst hh).template
      exact (hfirst hh).trans ((ih h).mono (by simp [Template.keysOfKinds, ht]))

/-- After a pass over some kinds, the keys of these kinds have values. -/
lemma mem_of_handleKinds {kinds : List KeyKind} (h : s.handleKinds ids kinds = (.ok (), s')) :
    ∀ kind ∈ kinds, ∀ k ∈ s.template.keysOfKind kind, k.name ∈ s'.values := by
  induction kinds generalizing s with
  | nil => simp
  | cons kind kinds ih =>
    obtain ⟨values, s₁, hh, hrest⟩ := handleKinds_cons_eq_ok_iff.mp h
    have hext := (handleKinds_proceeds hrest).extends_values
    obtain ⟨hvalues, hmem⟩ := values_of_handle hh
    refine List.forall_mem_cons.mpr ⟨fun k hk => hext.mem (hvalues.mem (hmem k hk)), ?_⟩
    rw [← (handle_proceeds hh).template]
    exact ih hrest

lemma handleKinds_again {kinds : List KeyKind} (h : s.handleKinds ids kinds = (.ok (), s'))
    (ht : s''.template = s.template) (hext : s''.values.Extends s'.values) :
    s''.handleKinds ids kinds = (.ok (), s'') := by
  induction kinds generalizing s with
  | nil => rfl
  | cons kind kinds ih =>
    obtain ⟨values, s₁, hh, hrest⟩ := handleKinds_cons_eq_ok_iff.mp h
    have hagain := handle_again hh fun n v hv =>
      hext n v ((handleKinds_proceeds hrest).extends_values n v hv)
    have hlater := ih hrest (ht.trans (handle_proceeds hh).template.symm)
    exact handleKinds_cons_eq_ok_iff.mpr ⟨values, s'', ht ▸ hagain, hlater⟩

end Session

end Stencil

import Mathlib.Data.List.Nodup
import Stencil.Proofs.Resolution.Grounded
import Stencil.Resolution.Session

/-!
Sessions.

The steps of a session that compute keys are runs of the rules of its template: they keep the
template, the names that cases have set and all values. Single requests succeed exactly for
grounded names.
-/

namespace Stencil

open Progress

namespace KeyKind

lemma ofTag?_tag (kind : KeyKind) : ofTag? kind.tag = some kind := by
  cases kind <;> rfl

lemma eq_input_or_mem_computed (kind : KeyKind) : kind = .input ∨ kind ∈ computed := by
  cases kind <;> simp [computed]

end KeyKind

namespace Template

variable {t : Template} {values : Bindings}

def keyNames (t : Template) : List String := t.keys.map (·.name)

/-- The key is the one that its name stands for in the template, and it is of the kind. -/
def Owns (t : Template) (kind : KeyKind) (k : Key) : Prop :=
  t.key? k.name = some k ∧ k.kind? = some kind

/-- Every key of the template has a value. -/
def Complete (t : Template) (values : Bindings) : Prop := ∀ k ∈ t.keys, k.name ∈ values

lemma key?_name (hn : t.keyNames.Nodup) {k : Key} (hk : k ∈ t.keys) : t.key? k.name = some k := by
  unfold key?
  obtain ⟨k', hk'⟩ : ∃ k', t.keys.find? (·.name = k.name) = some k' := by
    rw [← Option.isSome_iff_exists, List.find?_isSome]
    exact ⟨k, hk, by simp⟩
  have hname : k'.name = k.name := by simpa using List.find?_some hk'
  rw [hk', List.inj_on_of_nodup_map hn (List.mem_of_find?_eq_some hk') hk hname]

lemma mem_keysOfKind_iff {kind : KeyKind} {k : Key} :
    k ∈ t.keysOfKind kind ↔ k ∈ t.keys ∧ k.kind? = some kind := by
  have htag : k.typeTag = kind.tag ↔ k.kind? = some kind :=
    ⟨fun h => by rw [Key.kind?, h, KeyKind.ofTag?_tag],
      fun h => (by simpa using List.find?_some h : kind.tag = k.typeTag).symm⟩
  rw [keysOfKind, List.mem_filter, decide_eq_true_eq, htag]

lemma owns_keysOfKind (hn : t.keyNames.Nodup) (kind : KeyKind) :
    ∀ k ∈ t.keysOfKind kind, t.Owns kind k :=
  fun _ hk => ⟨key?_name hn (mem_keysOfKind_iff.mp hk).1, (mem_keysOfKind_iff.mp hk).2⟩

/-- An input key has no rule, so that only the user or a case can give it a value. -/
lemma grounded_input_iff (hn : t.keyNames.Nodup) {k : Key} (hk : k ∈ t.keys)
    (hkind : k.kind? = some .input) : t.Grounded values k.name ↔ k.name ∈ values := by
  refine ⟨fun h => ?_, .value⟩
  by_contra hv
  obtain ⟨rule, hrule, -⟩ := h.exists_rule hv
  rw [rule?_eq (key?_name hn hk) hkind] at hrule
  simp [Rule.ofKey, Except.toOption] at hrule

lemma not_step_of_complete {ids : IdSource} {waiting : List String} {p q : Progress}
    (hc : t.Complete p.values) : ¬ Step ids (t.Applies waiting) p q := by
  rintro @⟨name, rule, ⟨hrule, -⟩, hnew, -⟩
  obtain ⟨k, kind, hk, -⟩ := exists_key_of_rule? hrule
  exact hnew (name_of_key? hk ▸ hc k (mem_keys_of_key? hk))

end Template

namespace Session

variable {ids : IdSource} {s s' s'' : Session}

/-- The later session has made a run of the rules of its template, and is else the same. -/
structure Advances (s : Session) (ids : IdSource) (s' : Session) : Prop where
  template : s'.template = s.template
  overridden : s'.overridden = s.overridden
  run : Run ids (s.template.Applies []) s.progress s'.progress

namespace Advances

lemma refl (ids : IdSource) (s : Session) : s.Advances ids s := ⟨rfl, rfl, .refl⟩

lemma trans (h : s.Advances ids s') (h' : s'.Advances ids s'') : s.Advances ids s'' :=
  ⟨h'.template.trans h.template, h'.overridden.trans h.overridden,
    h.run.trans (h.template ▸ h'.run)⟩

lemma extends_values (h : s.Advances ids s') : s'.values.Extends s.values := h.run.extends

lemma grounded_iff (h : s.Advances ids s') {name : String} :
    s'.template.Grounded s'.values name ↔ s.template.Grounded s.values name := by
  rw [h.template]
  exact Template.grounded_run_iff h.run

/-- Nothing is left to do for a complete session. -/
lemma eq_of_complete (h : s.Advances ids s') (hc : s.template.Complete s.values) : s' = s := by
  have hp : s'.progress = s.progress := by
    rcases h.run.cases_head with heq | ⟨q, hstep, -⟩
    · exact heq.symm
    · exact absurd hstep (Template.not_step_of_complete hc)
  obtain ⟨t', p', o'⟩ := s'
  obtain ⟨rfl, rfl, -⟩ := h
  exact congrArg (Session.mk _ · _) hp

end Advances

lemma keep_advances {α : Type} {a : Attempt α} {r : Except ResolveError α}
    (hrun : Run ids (s.template.Applies []) s.progress a.2) (h : s.keep a = (r, s')) :
    s.Advances ids s' := by
  obtain ⟨-, rfl⟩ := Prod.mk.inj h
  exact ⟨rfl, rfl, hrun⟩

/-! ### Single requests -/

lemma resolveSymbol_advances {name : String} {r : Except ResolveError String}
    (h : s.resolveSymbol ids name = (r, s')) : s.Advances ids s' :=
  keep_advances ((Template.demand_asks _ _ _ _).run rfl) h

lemma value_of_resolveSymbol {name v : String} (h : s.resolveSymbol ids name = (.ok v, s')) :
    s'.values[name]? = some v := by
  obtain ⟨hr, rfl⟩ := Prod.mk.inj h
  exact (Template.demand_asks _ _ _ _).found (Prod.ext hr rfl)

lemma resolveSymbol_of_value {name v : String} (hv : s.values[name]? = some v) :
    s.resolveSymbol ids name = (.ok v, s) := by
  rw [resolveSymbol, Template.demand_of_value hv]
  rfl

lemma resolveSymbol_ok_iff (ids : IdSource) {name : String} :
    (∃ v s', s.resolveSymbol ids name = (.ok v, s')) ↔ s.template.Grounded s.values name := by
  rw [values, ← Template.demand_ok_iff ids]
  constructor
  · rintro ⟨v, s', h⟩
    exact ⟨v, _, Prod.ext (Prod.mk.inj h).1 rfl⟩
  · rintro ⟨v, q, h⟩
    exact ⟨v, { s with progress := q }, by simp [resolveSymbol, keep, h]⟩

lemma interpolate_advances {format : String} {r : Except ResolveError String}
    (h : s.interpolate ids format = (r, s')) : s.Advances ids s' :=
  keep_advances ((Template.demand_asks _ _ _ _).run_interpolateWith rfl) h

/-- What is interpolated is the format with its placeholders replaced by the values of the table
that is reached, which all exist. -/
lemma value_of_interpolate {format text : String}
    (h : s.interpolate ids format = (.ok text, s')) :
    (∀ n ∈ Placeholder.references format, n ∈ s'.values) ∧
      text = Placeholder.substitute (s'.values[·]?) format := by
  obtain ⟨hr, rfl⟩ := Prod.mk.inj h
  exact (Template.demand_asks _ _ _ _).found_interpolateWith (Prod.ext hr rfl)

/-- A format of which everything has a value is filled in without anything being computed. -/
lemma interpolate_of_mem (ids : IdSource) {format : String}
    (h : ∀ n ∈ Placeholder.references format, n ∈ s.values) :
    s.interpolate ids format = (.ok (Placeholder.substitute (s.values[·]?) format), s) := by
  have hask : askAll (s.template.demand ids s.overridden []) (Placeholder.references format)
      s.progress = (.ok (), s.progress) := by
    generalize Placeholder.references format = names at h
    induction names with
    | nil => rfl
    | cons n names ih =>
      obtain ⟨hn, hnames⟩ := List.forall_mem_cons.mp h
      obtain ⟨v, hv⟩ := mem_iff_exists.mp hn
      simp only [askAll, Template.demand_of_value hv, ih hnames]
  simp only [interpolate, interpolateWith, hask]
  rfl

lemma interpolate_ok_iff (ids : IdSource) {format : String} :
    (∃ text s', s.interpolate ids format = (.ok text, s')) ↔
      ∀ n ∈ Placeholder.references format, s.template.Grounded s.values n := by
  have hasks := Template.demand_asks s.template ids s.overridden []
  constructor
  · rintro ⟨text, s', h⟩ n hn
    have hv := (value_of_interpolate h).1 n hn
    exact (interpolate_advances h).grounded_iff.mp (.value hv)
  · intro hg
    obtain ⟨text, q, h⟩ := hasks.interpolateWith_ok
      (fun n hn => (hg n hn).succeeds ids (by simp)) fun n hn => hn
    exact ⟨text, { s with progress := q }, by simp [interpolate, keep, h]⟩

/-- Handling one of the template's own keys is a request for its name. -/
lemma evaluate_eq_resolveSymbol {kind : KeyKind} {k : Key} (hk : s.template.Owns kind k) :
    s.evaluate ids kind k = s.resolveSymbol ids k.name := by
  unfold evaluate resolveSymbol
  cases hv : s.values[k.name]? with
  | some v =>
    rw [Template.demand_of_value hv]
    rfl
  | none =>
    rw [Template.demand_of_kind? hv hk.1 hk.2, if_neg (by simp)]

end Session

end Stencil

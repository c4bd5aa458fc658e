import Stencil.Proofs.Resolution.Operations
import Stencil.Proofs.Resolution.Solution

/-!
What a case sets.

A case sets all of its keys or none of them. What it has set stays: inputs and passes over the keys
go by the names that cases have set, and everything else only gives values to names that have none.
-/

namespace Stencil

/-- The names that a case sets. -/
def Case.names (c : Case) : List String := c.overrides.map (·.name)

lemma Case.names_eq {c : Case} (h : ∀ k ∈ c.overrides, (k.attr? "value").isSome) :
    c.names = c.settings.map Prod.fst := by
  unfold Case.names Case.settings
  generalize c.overrides = ks at h
  induction ks with
  | nil => rfl
  | cons k ks ih =>
    obtain ⟨hk, hks⟩ := List.forall_mem_cons.mp h
    obtain ⟨v, hv⟩ := Option.isSome_iff_exists.mp hk
    simp [hv, ih hks]

/-- The operation gives up what a case has set for the name: a further case sets it, or the session
turns to a template. -/
def Operation.Resets (s : Session) (name : String) : Operation → Prop
  | .applyCase switch case => (∃ s', s.applyCase switch case = (.ok (), s')) ∧
      ∃ c, s.template.chosen? (switch, case) = some c ∧ name ∈ c.names
  | .select _ => True
  | _ => False

namespace Session

variable {ids : IdSource} {s s' : Session} {name value : String}

/-- One of the operations, when its turn comes, gives up what a case has set for the name. -/
def ResetBy (s : Session) (ids : IdSource) (name : String) (ops : List Operation) : Prop :=
  ∃ before op after, ops = before ++ op :: after ∧ op.Resets (s.performAll ids before) name

/-- A case has set the name, and the name has this value. -/
structure IsSet (s : Session) (name value : String) : Prop where
  overridden : name ∈ s.overridden
  value : s.values[name]? = some value

lemma IsSet.proceeds {handed : List (KeyKind × Key)} (h : s.IsSet name value)
    (hp : s.Proceeds ids handed s') : s'.IsSet name value :=
  ⟨hp.overridden ▸ h.overridden, hp.extends_values _ _ h.value⟩

lemma IsSet.absorbInputs (h : s.IsSet name value) (inputs : Bindings) :
    (s.absorbInputs inputs).IsSet name value := by
  refine ⟨h.overridden, ?_⟩
  rw [getElem?_absorbInputs, if_pos h.overridden, h.value]

lemma applyCase_error {switch case : String} {e : ResolveError}
    (h : s.applyCase switch case = (.error e, s')) : s' = s := by
  unfold applyCase at h
  split at h
  · exact (Prod.mk.inj h).2.symm
  · split at h
    · exact (Prod.mk.inj h).2.symm
    · simp at h

/-- A case that is applied enters all its settings. -/
lemma exists_case_of_applyCase {switch case : String}
    (h : s.applyCase switch case = (.ok (), s')) :
    ∃ c, s.template.chosen? (switch, case) = some c ∧ c.names = c.settings.map Prod.fst ∧
      s' = s.overrideAll c.settings := by
  obtain ⟨⟨c, hc, hall⟩, rfl⟩ := (applyCase_ok_iff (switch, case)).mp h
  exact ⟨c, hc, Case.names_eq hall, by simp [Template.settings, hc]⟩

lemma getElem?_overrideAll_of_not_mem {entries : List (String × String)}
    (h : name ∉ entries.map Prod.fst) :
    (s.overrideAll entries).values[name]? = s.values[name]? := by
  rw [← lastValue?_isSome_iff, Option.not_isSome_iff_eq_none] at h
  rw [getElem?_overrideAll, h, Option.none_or]

lemma IsSet.applyCase {switch case : String} (h : s.IsSet name value)
    (hop : ¬ (Operation.applyCase switch case).Resets s name) :
    (s.applyCase switch case).2.IsSet name value := by
  rcases hcase : s.applyCase switch case with ⟨e | u, s'⟩
  · rwa [applyCase_error hcase]
  · obtain ⟨c, hc, hnames, rfl⟩ := exists_case_of_applyCase hcase
    have hn : name ∉ c.settings.map Prod.fst := fun hmem =>
      hop ⟨⟨_, hcase⟩, c, hc, hnames ▸ hmem⟩
    refine ⟨mem_overridden_overrideAll.mpr (.inr h.overridden), ?_⟩
    rw [getElem?_overrideAll_of_not_mem hn, h.value]

/-- One operation, whether or not it succeeds, leaves a name as a case has set it. -/
lemma IsSet.perform (ids : IdSource) (h : s.IsSet name value) {op : Operation}
    (hop : ¬ op.Resets s name) : (op.perform ids s).2.IsSet name value := by
  cases op with
  | ask r => exact h.proceeds (r.reply_proceeds ids s)
  | resolveAll inputs => exact (h.absorbInputs inputs).proceeds (resolveAll_proceeds rfl)
  | absorb inputs => exact h.absorbInputs inputs
  | applyCase switch case => exact h.applyCase hop
  | select t => exact absurd trivial hop

lemma IsSet.performAll (h : s.IsSet name value) {ops : List Operation}
    (hops : ¬ s.ResetBy ids name ops) : (s.performAll ids ops).IsSet name value := by
  induction ops generalizing s with
  | nil => exact h
  | cons op ops ih =>
    have hop : ¬ op.Resets s name := fun hr => hops ⟨[], op, ops, rfl, hr⟩
    rw [performAll_cons]
    refine ih (h.perform ids hop) ?_
    rintro ⟨before, op', after, rfl, hr⟩
    exact hops ⟨op :: before, op', after, rfl, hr⟩

/-- **A case sets all of its keys or none, and sets them for good**: the name keeps the last value
that the case gives it through all operations, until one of them gives it up. -/
theorem applyCase_lasts (ids : IdSource) (s : Session) (switch case : String) :
    (∀ e s', s.applyCase switch case = (.error e, s') → s' = s) ∧
    ∀ s', s.applyCase switch case = (.ok (), s') →
      ∃ c, s.template.chosen? (switch, case) = some c ∧
        (∀ n ∉ c.names, s'.values[n]? = s.values[n]? ∧
          (n ∈ s'.overridden ↔ n ∈ s.overridden)) ∧
        ∀ n ∈ c.names, n ∈ s'.overridden ∧ ∃ v, lastValue? c.settings n = some v ∧
          ∀ ops, ¬ s'.ResetBy ids n ops → (s'.performAll ids ops).values[n]? = some v := by
  refine ⟨fun e s' h => applyCase_error h, fun s' h => ?_⟩
  obtain ⟨c, hc, hnames, rfl⟩ := exists_case_of_applyCase h
  refine ⟨c, hc, fun n hn => ?_, fun n hn => ?_⟩
  · rw [hnames] at hn
    refine ⟨getElem?_overrideAll_of_not_mem hn, ?_⟩
    rw [mem_overridden_overrideAll, or_iff_right hn]
  · rw [hnames] at hn
    obtain ⟨v, hv⟩ := Option.isSome_iff_exists.mp (lastValue?_isSome_iff.mpr hn)
    have hset : (s.overrideAll c.settings).IsSet n v :=
      ⟨mem_overridden_overrideAll.mpr (.inl hn), by rw [getElem?_overrideAll, hv, Option.some_or]⟩
    exact ⟨hset.overridden, v, hv, fun ops hops => (hset.performAll hops).value⟩

/-- Operations that would all give the region another value if no case had set it. The request for
a text fails. -/
def regionOperations : List Operation :=
  [.absorb (.ofList [("region", "Mars")]),
    .ask (.keys .value [⟨"region", "value", .ofList [("value", "Moon")]⟩]),
    .ask (.text "$(region) $(nowhere)"),
    .resolveAll (.ofList [("region", "Venus"), ("project", "demo")])]

theorem library_region_lasts : ∃ s, (start .library).applyCase "site" "eu" = (.ok (), s) ∧
    (s.performAll (fun _ name => name) regionOperations).values["region"]? = some "Europe" := by
  obtain ⟨s, hs⟩ : ∃ s, (start .library).applyCase "site" "eu" = (.ok (), s) := ⟨_, rfl⟩
  obtain ⟨c, hc, -, hset⟩ := (applyCase_lasts (fun _ name => name) _ _ _).2 s hs
  obtain rfl := Option.some.inj hc
  obtain ⟨-, v, hv, hlasts⟩ := hset "region" (by decide)
  obtain rfl := Option.some.inj hv
  refine ⟨s, hs, hlasts regionOperations ?_⟩
  rintro ⟨before, op, after, hops, hreset⟩
  have hmem : op ∈ regionOperations := by simp [hops]
  simp only [regionOperations, List.mem_cons, List.not_mem_nil, or_false] at hmem
  rcases hmem with rfl | rfl | rfl | rfl <;> exact hreset

end Session

end Stencil

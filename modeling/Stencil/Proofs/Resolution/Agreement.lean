import Stencil.Proofs.Resolution.Requests
import Stencil.Proofs.Resolution.Solution

/-!
The order of requests and of keys does not matter.

If the identifier for a key depends on its name only, then the value of a name is determined by the
values that were there at first: runs that start with the same values and give a value to a name
give it the same one. So neither requests made before a pass over all keys nor the order of the
keys can be told from what a resolution comes to.
-/

namespace Stencil

open Progress

variable {ids : String → String}

/-! ### Runs agree -/

/-- A rule gives only one value on tables that agree on what it refers to. -/
lemma Rule.Gives.unique {rule : Rule} {values values' : Bindings} {name v v' : String}
    (h : rule.Gives (fun _ => ids) values name v) (h' : rule.Gives (fun _ => ids) values' name v')
    (hagree : ∀ n ∈ rule.references, values[n]? = values'[n]?) : v = v' := by
  obtain ⟨-, i, rfl⟩ := h
  obtain ⟨-, j, rfl⟩ := h'
  have hissued : rule.valueIn (fun _ => ids) ⟨values', i⟩ name =
      rule.valueIn (fun _ => ids) ⟨values', j⟩ name := by
    cases rule <;> rfl
  rw [valueIn_congr hagree, hissued]

namespace Template

variable {t t' : Template} {p p' q q' : Progress} {name : String}

lemma Grounded.congr (hrules : ∀ n, t'.rule? n = t.rule? n) {values : Bindings}
    (h : t.Grounded values name) : t'.Grounded values name := by
  induction h with
  | value h => exact .value h
  | rule hrule _ ih => exact .rule ((hrules _).trans hrule) ih

/-- **Runs agree** on every name that both of them give a value to. -/
theorem getElem?_eq_of_runs (hrules : ∀ n, t'.rule? n = t.rule? n) (hp : p'.values = p.values)
    (h : Run (fun _ => ids) (t.Applies []) p q) (h' : Run (fun _ => ids) (t'.Applies []) p' q')
    (hq : name ∈ q.values) (hq' : name ∈ q'.values) : q'.values[name]? = q.values[name]? := by
  -- the steps of the two runs do not correspond, so the induction is on why the name is grounded
  induction grounded_of_run h name hq with
  | @value name hold =>
    rw [h.extends.getElem?_eq hold, h'.extends.getElem?_eq (hp ▸ hold), hp]
  | @rule name rule hrule _ ih =>
    by_cases hold : name ∈ p.values
    · rw [h.extends.getElem?_eq hold, h'.extends.getElem?_eq (hp ▸ hold), hp]
    obtain ⟨v, hv⟩ := mem_iff_exists.mp hq
    obtain ⟨v', hv'⟩ := mem_iff_exists.mp hq'
    obtain ⟨rule₁, ⟨hr, -⟩, hg⟩ := h.gives hold hv
    obtain ⟨rule₂, ⟨hr', -⟩, hg'⟩ := h'.gives (hp ▸ hold) hv'
    obtain rfl := Option.some.inj (hrule.symm.trans hr)
    obtain rfl := Option.some.inj (hrule.symm.trans ((hrules name).symm.trans hr'))
    rw [hv, hv', hg'.unique hg fun n hn => ih n hn (hg.1 n hn) (hg'.1 n hn)]

/-- Complete sessions that advance from the same values have the same table. -/
lemma values_eq_of_advances (hrules : ∀ n, t'.rule? n = t.rule? n)
    (hnames : ∀ n, n ∈ t'.keyNames ↔ n ∈ t.keyNames) {inputs : Bindings}
    {choices : List (String × String)}
    (hopened : (t'.opened inputs choices).values = (t.opened inputs choices).values)
    {s s' : Session} (h : (t.opened inputs choices).Advances (fun _ => ids) s)
    (h' : (t'.opened inputs choices).Advances (fun _ => ids) s')
    (hc : t.Complete s.values) (hc' : t'.Complete s'.values) : s'.values = s.values := by
  have hmem : ∀ n, n ∈ s'.values ↔ n ∈ s.values := fun n => by
    rw [mem_values_iff h hc, mem_values_iff h' hc', hopened, hnames]
  have hrun := h.run
  have hrun' := h'.run
  rw [template_opened] at hrun hrun'
  refine Std.ExtTreeMap.ext_getElem? fun n => ?_
  by_cases hn : n ∈ s.values
  · exact getElem?_eq_of_runs hrules hopened hrun hrun' hn ((hmem n).mpr hn)
  · rw [getElem?_eq_none_iff.mpr hn, getElem?_eq_none_iff.mpr (mt (hmem n).mp hn)]

end Template

/-! ### Requests before a pass -/

namespace Session

/-- **Lazy and eager resolution agree**: whatever is asked of a session before the pass over all
keys, the pass succeeds or fails as it does without, and comes to the same table. -/
theorem resolveAll_serve {t : Template} (hn : t.keyNames.Nodup) {inputs : Bindings}
    {choices : List (String × String)} {s : Session}
    (hs : ((start t).absorbInputs inputs).applyCases choices = (.ok (), s))
    {requests : List Request} (hfit : ∀ r ∈ requests, r.Fits t) :
    ((∃ s', (s.serve (fun _ => ids) requests).resolveAll (fun _ => ids) inputs = (.ok (), s')) ↔
      ∃ s', s.resolveAll (fun _ => ids) inputs = (.ok (), s')) ∧
    ∀ s₁ s₂, s.resolveAll (fun _ => ids) inputs = (.ok (), s₁) →
      (s.serve (fun _ => ids) requests).resolveAll (fun _ => ids) inputs = (.ok (), s₂) →
      s₂.values = s₁.values := by
  obtain ⟨-, rfl⟩ := Template.applyCases_start_iff.mp hs
  have ht : (t.opened inputs choices).template = t := Template.template_opened
  have hadv : (t.opened inputs choices).Advances (fun _ => ids)
      ((t.opened inputs choices).serve (fun _ => ids) requests) :=
    serve_advances _ (by rwa [ht]) (by rwa [ht])
  have ht' := hadv.template.trans ht
  have hsame := Template.absorbInputs_of_advances hadv
  constructor
  · rw [resolveAll_ok_iff _ (by rwa [ht']) hsame, Template.resolveAll_opened_ok_iff _ hn]
    simp only [hadv.grounded_iff]
    rw [ht', ht]
  · intro s₁ s₂ h₁ h₂
    have hc₂ := (complete_of_resolveAll (by rwa [ht']) hsame h₂).2
    rw [ht'] at hc₂
    exact Template.values_eq_of_advances (fun _ => rfl) (fun _ => .rfl) rfl
      (Template.advances_of_resolveAll hn h₁)
      (hadv.trans (resolveAll_advances (by rwa [ht']) hsame h₂))
      (Template.complete_of_resolveAll hn h₁) hc₂

/-- Requests of which the first one fails half way, and the second one at once. -/
def libraryRequests : List Request :=
  [.text "$(slug) $(nowhere)", .symbol "nowhere",
    .keys .uuid (Template.library.keysOfKind .uuid), .folders]

theorem library_serve : ∃ s s₁ s₂,
    ((start .library).absorbInputs Answers.library.inputs).applyCases
      Answers.library.cases.toList = (.ok (), s) ∧
    s.resolveAll (fun _ name => name) Answers.library.inputs = (.ok (), s₁) ∧
    (s.serve (fun _ name => name) libraryRequests).resolveAll (fun _ name => name)
      Answers.library.inputs = (.ok (), s₂) ∧
    s₂.values = s₁.values := by
  have hn : Template.library.keyNames.Nodup := by decide
  have hfit : ∀ r ∈ libraryRequests, r.Fits .library := by
    simp [libraryRequests, Request.Fits, Template.mem_keysOfKind_iff]
  obtain ⟨r, h⟩ := exists_resolve_library
  obtain ⟨hcan, s₁, h₁, -⟩ := (Template.resolve_eq_ok_iff hn).mp h
  have hs : ((start .library).absorbInputs Answers.library.inputs).applyCases
      Answers.library.cases.toList = (.ok (), _) := Template.applyCases_start_iff.mpr ⟨hcan, rfl⟩
  obtain ⟨hok, hsame⟩ := resolveAll_serve hn hs hfit
  obtain ⟨s₂, h₂⟩ := hok.mpr ⟨s₁, h₁⟩
  exact ⟨_, s₁, s₂, hs, h₁, h₂, hsame s₁ s₂ h₁ h₂⟩

end Session

/-! ### Keys in another order -/

namespace Template

variable {t : Template} {keys : List Key}

lemma key?_eq_some_iff (hn : t.keyNames.Nodup) {name : String} {k : Key} :
    t.key? name = some k ↔ k ∈ t.keys ∧ k.name = name := by
  constructor
  · intro h
    exact ⟨mem_keys_of_key? h, name_of_key? h⟩
  · rintro ⟨hk, rfl⟩
    exact key?_name hn hk

lemma keyNames_perm (hperm : keys.Perm t.keys) :
    (keyNames { t with keys := keys }).Perm t.keyNames :=
  hperm.map _

lemma rule?_perm (hn : t.keyNames.Nodup) (hperm : keys.Perm t.keys) (name : String) :
    rule? { t with keys := keys } name = t.rule? name := by
  have hkey : key? { t with keys := keys } name = t.key? name := by
    ext k
    rw [key?_eq_some_iff ((keyNames_perm hperm).nodup_iff.mpr hn), key?_eq_some_iff hn,
      hperm.mem_iff]
  rw [rule?, hkey, rule?]

/-- Inputs and cases have nothing to do with the keys. -/
lemma opened_values_perm (t : Template) (keys : List Key) (inputs : Bindings)
    (choices : List (String × String)) :
    (opened { t with keys := keys } inputs choices).values = (t.opened inputs choices).values := by
  refine Std.ExtTreeMap.ext_getElem? fun n => ?_
  rw [getElem?_opened, getElem?_opened]
  rfl

lemma resolve_of_perm (hn : t.keyNames.Nodup) (hperm : keys.Perm t.keys) {a : Answers}
    {r : ResolvedTemplate} (h : t.resolve (fun _ => ids) a = .ok r) :
    resolve { t with keys := keys } (fun _ => ids) a = .ok r := by
  have hn' := (keyNames_perm hperm).nodup_iff.mpr hn
  have hrules := rule?_perm hn hperm
  have hopened := opened_values_perm t keys a.inputs a.cases.toList
  obtain ⟨hcan, s, hall, hrenames, rfl⟩ := (resolve_eq_ok_iff hn).mp h
  obtain ⟨hkinds, hg⟩ := (resolveAll_opened_ok_iff _ hn).mp ⟨s, hall⟩
  obtain ⟨s', hall'⟩ := (resolveAll_opened_ok_iff (fun _ => ids) hn').mpr
    ⟨fun k hk => hkinds k (hperm.mem_iff.mp hk), fun k hk =>
      hopened ▸ (hg k (hperm.mem_iff.mp hk)).congr hrules⟩
  have hvalues := values_eq_of_advances hrules (fun n => (keyNames_perm hperm).mem_iff) hopened
    (advances_of_resolveAll hn hall) (advances_of_resolveAll hn' hall')
    (complete_of_resolveAll hn hall) (complete_of_resolveAll hn' hall')
  refine (resolve_eq_ok_iff hn').mpr ⟨hcan, s', hall', ?_, ?_⟩
  · rwa [hvalues]
  · rw [hvalues]

/-- **The order of the keys does not matter**: a template with its keys in another order can be
resolved if and only if the template itself can, and comes to the same. -/
theorem resolve_perm (hn : t.keyNames.Nodup) (hperm : keys.Perm t.keys) {a : Answers}
    {r : ResolvedTemplate} :
    resolve { t with keys := keys } (fun _ => ids) a = .ok r ↔
      t.resolve (fun _ => ids) a = .ok r := by
  have hn' := (keyNames_perm hperm).nodup_iff.mpr hn
  exact ⟨fun h => resolve_of_perm hn' hperm.symm h, resolve_of_perm hn hperm⟩

theorem library_reverse : ∃ r, library.resolve (fun _ name => name) .library = .ok r ∧
    resolve { library with keys := library.keys.reverse } (fun _ name => name) .library = .ok r := by
  obtain ⟨r, h⟩ := exists_resolve_library
  exact ⟨r, h, (resolve_perm (by decide) (List.reverse_perm _)).mpr h⟩

end Template

end Stencil

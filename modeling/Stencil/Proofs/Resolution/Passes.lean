import Stencil.Proofs.Resolution.Entries
import Stencil.Proofs.Resolution.Handling
import Stencil.Resolution.Resolve

/-!
Passes over all keys and all folders.

A pass over the keys handles them kind by kind. It succeeds exactly if every type is a kind and
every key is grounded, and leaves a session in which every key has a value. Folders then get their
names without anything being computed.
-/

namespace Stencil

namespace Session

variable {ids : IdSource} {s s' : Session}

lemma handle_advances {kind : KeyKind} {ks : List Key} {r : Except ResolveError Bindings}
    (hown : ∀ k ∈ ks, s.template.Owns kind k) (h : s.handle ids kind ks = (r, s')) :
    s.Advances ids s' :=
  (handle_proceeds h).advances (by simpa using hown)

lemma handle_ok (ids : IdSource) {kind : KeyKind} {ks : List Key}
    (hown : ∀ k ∈ ks, s.template.Owns kind k)
    (hg : ∀ k ∈ ks, s.template.Grounded s.values k.name) :
    ∃ values s', s.handle ids kind ks = (.ok values, s') := by
  induction ks generalizing s with
  | nil => exact ⟨∅, s, rfl⟩
  | cons k ks ih =>
    obtain ⟨hk, hks⟩ := List.forall_mem_cons.mp hown
    obtain ⟨hgk, hgks⟩ := List.forall_mem_cons.mp hg
    obtain ⟨v, s₁, h₁⟩ := (resolveSymbol_ok_iff ids).mpr hgk
    have hadv := resolveSymbol_advances h₁
    obtain ⟨rest, s₂, h₂⟩ := ih (hadv.template ▸ hks) fun k hk => hadv.grounded_iff.mpr (hgks k hk)
    rw [← evaluate_eq_resolveSymbol hk] at h₁
    exact ⟨_, s₂, handle_cons_eq_ok_iff.mpr ⟨v, s₁, rest, h₁, h₂, rfl⟩⟩

/-! ### All kinds -/

lemma handleKinds_advances (hn : s.template.keyNames.Nodup) {kinds : List KeyKind}
    {r : Except ResolveError Unit} (h : s.handleKinds ids kinds = (r, s')) :
    s.Advances ids s' :=
  (handleKinds_proceeds h).advances (Template.owns_keysOfKinds hn kinds)

lemma handleKinds_ok (ids : IdSource) (kinds : List KeyKind) (hn : s.template.keyNames.Nodup)
    (hg : ∀ k ∈ s.template.keys, s.template.Grounded s.values k.name) :
    ∃ s', s.handleKinds ids kinds = (.ok (), s') := by
  induction kinds generalizing s with
  | nil => exact ⟨s, rfl⟩
  | cons kind kinds ih =>
    have hown := Template.owns_keysOfKind hn kind
    obtain ⟨values, s₁, h₁⟩ := handle_ok ids hown
      fun k hk => hg k (Template.mem_keysOfKind_iff.mp hk).1
    have hadv := handle_advances hown h₁
    obtain ⟨s₂, h₂⟩ := ih (hadv.template ▸ hn) fun k hk =>
      hadv.grounded_iff.mpr (hg k (hadv.template ▸ hk))
    exact ⟨s₂, handleKinds_cons_eq_ok_iff.mpr ⟨values, s₁, h₁, h₂⟩⟩

lemma obstacle?_eq_none_iff : s.obstacle? = none ↔
    (∀ k ∈ s.template.keys, k.kind?.isSome) ∧
      ∀ k ∈ s.template.keys, k.kind? = some .input → k.name ∈ s.values := by
  have hkinds : s.template.keys.find? (·.kind?.isNone) = none ↔
      ∀ k ∈ s.template.keys, k.kind?.isSome := by
    simp [List.find?_eq_none, Option.isSome_iff_ne_none]
  have hinputs : (s.template.keysOfKind .input).find? (fun k => !s.values.contains k.name) = none ↔
      ∀ k ∈ s.template.keys, k.kind? = some .input → k.name ∈ s.values := by
    simp [List.find?_eq_none, Template.mem_keysOfKind_iff, and_imp]
  rw [← hkinds, ← hinputs]
  unfold obstacle?
  cases s.template.keys.find? (·.kind?.isNone) with
  | some k => simp
  | none => cases (s.template.keysOfKind .input).find? _ <;> simp

lemma resolveAll_advances (hn : s.template.keyNames.Nodup) {inputs : Bindings}
    (hs : s.absorbInputs inputs = s) {r : Except ResolveError Unit}
    (h : s.resolveAll ids inputs = (r, s')) : s.Advances ids s' := by
  simp only [resolveAll, hs] at h
  split at h
  · obtain ⟨-, rfl⟩ := Prod.mk.inj h
    exact .refl ids s
  · exact handleKinds_advances hn h

lemma complete_of_resolveAll (hn : s.template.keyNames.Nodup) {inputs : Bindings}
    (hs : s.absorbInputs inputs = s) (h : s.resolveAll ids inputs = (.ok (), s')) :
    (∀ k ∈ s.template.keys, k.kind?.isSome) ∧ s.template.Complete s'.values := by
  simp only [resolveAll, hs] at h
  split at h
  · simp at h
  · next hobst =>
    obtain ⟨hkinds, hinputs⟩ := obstacle?_eq_none_iff.mp hobst
    refine ⟨hkinds, fun k hk => ?_⟩
    obtain ⟨kind, hkind⟩ := Option.isSome_iff_exists.mp (hkinds k hk)
    rcases kind.eq_input_or_mem_computed with rfl | hmem
    · exact (handleKinds_advances hn h).extends_values.mem (hinputs k hk hkind)
    · exact mem_of_handleKinds h kind hmem k (Template.mem_keysOfKind_iff.mpr ⟨hk, hkind⟩)

/-- **A pass over all keys** succeeds exactly if all types are kinds and all keys are grounded. -/
theorem resolveAll_ok_iff (ids : IdSource) (hn : s.template.keyNames.Nodup) {inputs : Bindings}
    (hs : s.absorbInputs inputs = s) :
    (∃ s', s.resolveAll ids inputs = (.ok (), s')) ↔ (∀ k ∈ s.template.keys, k.kind?.isSome) ∧
      ∀ k ∈ s.template.keys, s.template.Grounded s.values k.name := by
  constructor
  · rintro ⟨s', h⟩
    obtain ⟨hkinds, hcomplete⟩ := complete_of_resolveAll hn hs h
    have hadv := resolveAll_advances hn hs h
    exact ⟨hkinds, fun k hk => hadv.grounded_iff.mp (.value (hcomplete k hk))⟩
  · rintro ⟨hkinds, hg⟩
    have hinputs : ∀ k ∈ s.template.keys, k.kind? = some .input → k.name ∈ s.values :=
      fun k hk hkind => (Template.grounded_input_iff hn hk hkind).mp (hg k hk)
    simp only [resolveAll, hs, obstacle?_eq_none_iff.mpr ⟨hkinds, hinputs⟩]
    exact handleKinds_ok ids KeyKind.computed hn hg

end Session

/-! ### Folders -/

/-- The name of a folder over a complete table: a new name without placeholders that is the name
of a value stands for it, and any other is a format. -/
def Folder.targetIn (f : Folder) (values : Bindings) : String :=
  match Placeholder.references f.rename, values[f.rename]? with
  | [], some value => value
  | _, _ => Placeholder.substitute (values[·]?) f.rename

namespace Folder

variable {f : Folder} {values : Bindings}

lemma targetIn_of_value {value : String} (hrefs : Placeholder.references f.rename = [])
    (hv : values[f.rename]? = some value) : f.targetIn values = value := by
  simp only [targetIn, hrefs, hv]

lemma targetIn_of_format (h : Placeholder.references f.rename = [] → f.rename ∉ values) :
    f.targetIn values = Placeholder.substitute (values[·]?) f.rename := by
  unfold targetIn
  split
  · next hrefs hv => exact absurd (mem_iff_exists.mpr ⟨_, hv⟩) (h hrefs)
  · rfl

end Folder

namespace Session

variable {ids : IdSource} {s s' : Session}

lemma resolveFolder_advances {f : Folder} {r : Except ResolveError String}
    (h : s.resolveFolder ids f = (r, s')) : s.Advances ids s' := by
  unfold resolveFolder at h
  split at h
  · exact resolveSymbol_advances h
  · exact interpolate_advances h

lemma resolveFolderList_advances {fs : List Folder} {r : Except ResolveError (List ResolvedFolder)}
    (h : s.resolveFolderList ids fs = (r, s')) : s.Advances ids s' := by
  induction fs generalizing s r s' with
  | nil =>
    obtain ⟨-, rfl⟩ := Prod.mk.inj h
    exact .refl ids s
  | cons f fs ih =>
    unfold resolveFolderList at h
    split at h
    · next hf =>
      obtain ⟨-, rfl⟩ := Prod.mk.inj h
      exact resolveFolder_advances hf
    · next hf =>
      split at h <;> next hfs =>
        obtain ⟨-, rfl⟩ := Prod.mk.inj h
        exact (resolveFolder_advances hf).trans (ih hfs)

lemma resolveFolderList_cons_eq_ok_iff {f : Folder} {fs : List Folder}
    {folders : List ResolvedFolder} :
    s.resolveFolderList ids (f :: fs) = (.ok folders, s') ↔ ∃ target s₁ rest,
      s.resolveFolder ids f = (.ok target, s₁) ∧ s₁.resolveFolderList ids fs = (.ok rest, s') ∧
        ⟨f.source, target⟩ :: rest = folders := by
  rw [resolveFolderList]
  rcases s.resolveFolder ids f with ⟨e | target, s₁⟩
  · simp
  · dsimp only
    rcases hr : s₁.resolveFolderList ids fs with ⟨e | rest, s₂⟩
    · simp [hr]
    · simp [hr, and_comm]

lemma namesKey_iff (hc : s.template.Complete s.values) {rename : String} :
    s.namesKey rename ↔ Placeholder.references rename = [] ∧ rename ∈ s.values := by
  have hkey : (s.template.key? rename).isSome → rename ∈ s.values := by
    intro h
    obtain ⟨k, hk⟩ := Option.isSome_iff_exists.mp h
    exact Template.name_of_key? hk ▸ hc k (Template.mem_keys_of_key? hk)
  simp only [namesKey, Bool.and_eq_true, List.isEmpty_iff, Bool.or_eq_true,
    Std.ExtTreeMap.contains_iff_mem]
  tauto

/-- A complete session names a folder without computing anything. -/
lemma resolveFolder_ok_iff (ids : IdSource) (hc : s.template.Complete s.values) {f : Folder}
    {target : String} :
    s.resolveFolder ids f = (.ok target, s') ↔
      s' = s ∧ target = f.targetIn s.values ∧
        ∀ n ∈ Placeholder.references f.rename, n ∈ s.values := by
  unfold resolveFolder
  split
  · next hkey =>
    obtain ⟨hrefs, hmem⟩ := (namesKey_iff hc).mp hkey
    obtain ⟨v, hv⟩ := mem_iff_exists.mp hmem
    rw [resolveSymbol_of_value hv, Folder.targetIn_of_value hrefs hv, hrefs]
    simp only [Prod.mk.injEq, Except.ok.injEq, List.not_mem_nil]
    constructor
    · rintro ⟨rfl, rfl⟩
      simp
    · rintro ⟨rfl, rfl, -⟩
      simp
  · next hkey =>
    rw [namesKey_iff hc, not_and] at hkey
    rw [Folder.targetIn_of_format hkey]
    constructor
    · intro h
      obtain rfl := (interpolate_advances h).eq_of_complete hc
      exact ⟨rfl, (value_of_interpolate h).symm⟩
    · rintro ⟨rfl, rfl, hrefs⟩
      exact interpolate_of_mem ids hrefs

/-- **Folders** of a complete session get their names if all that they refer to has a value, and
nothing is computed. -/
theorem resolveFolderList_ok_iff (ids : IdSource) (hc : s.template.Complete s.values)
    {fs : List Folder} {folders : List ResolvedFolder} :
    s.resolveFolderList ids fs = (.ok folders, s') ↔
      s' = s ∧ folders = fs.map (fun f => ⟨f.source, f.targetIn s.values⟩) ∧
        ∀ f ∈ fs, ∀ n ∈ Placeholder.references f.rename, n ∈ s.values := by
  induction fs generalizing folders s' with
  | nil => simp [resolveFolderList, eq_comm, and_comm]
  | cons f fs ih =>
    rw [List.forall_mem_cons, resolveFolderList_cons_eq_ok_iff]
    constructor
    · rintro ⟨target, s₁, rest, hf, hfs, rfl⟩
      obtain ⟨rfl, rfl, hrefs⟩ := (resolveFolder_ok_iff ids hc).mp hf
      obtain ⟨rfl, rfl, hrest⟩ := ih.mp hfs
      exact ⟨rfl, rfl, hrefs, hrest⟩
    · rintro ⟨rfl, rfl, hrefs, hrest⟩
      exact ⟨_, _, _, (resolveFolder_ok_iff ids hc).mpr ⟨rfl, rfl, hrefs⟩,
        ih.mpr ⟨rfl, rfl, hrest⟩, rfl⟩

end Session

/-! ### A whole resolution -/

namespace Template

variable {ids : IdSource} {t : Template} {inputs : Bindings} {choices : List (String × String)}
  {s : Session}

lemma advances_of_resolveAll (hn : t.keyNames.Nodup) {r : Except ResolveError Unit}
    (h : (t.opened inputs choices).resolveAll ids inputs = (r, s)) :
    (t.opened inputs choices).Advances ids s :=
  Session.resolveAll_advances (by rwa [template_opened])
    (absorbInputs_of_advances (.refl ids _)) h

lemma complete_of_resolveAll (hn : t.keyNames.Nodup)
    (h : (t.opened inputs choices).resolveAll ids inputs = (.ok (), s)) :
    t.Complete s.values := by
  have hc := Session.complete_of_resolveAll (by rwa [template_opened])
    (absorbInputs_of_advances (.refl ids _)) h
  rw [template_opened] at hc
  exact hc.2

/-- A pass over the keys of the opened session succeeds exactly if all types are kinds and all keys
are grounded in what the user and the cases give. -/
lemma resolveAll_opened_ok_iff (ids : IdSource) (hn : t.keyNames.Nodup) :
    (∃ s, (t.opened inputs choices).resolveAll ids inputs = (.ok (), s)) ↔
      (∀ k ∈ t.keys, k.kind?.isSome) ∧
        ∀ k ∈ t.keys, t.Grounded (t.opened inputs choices).values k.name := by
  rw [Session.resolveAll_ok_iff ids (by rwa [template_opened])
    (absorbInputs_of_advances (.refl ids _)), template_opened]

/-- What a pass adds to the opened session comes from the rules of keys. -/
lemma gives_of_advances (h : (t.opened inputs choices).Advances ids s) {n v : String}
    (hnew : n ∉ (t.opened inputs choices).values) (hv : s.values[n]? = some v) :
    ∃ rule, t.rule? n = some rule ∧ rule.Gives ids s.values n v := by
  obtain ⟨rule, ⟨hrule, -⟩, hg⟩ := h.run.gives hnew hv
  rw [template_opened] at hrule
  exact ⟨rule, hrule, hg⟩

/-- A complete table has the names that were given a value and the names of keys. -/
lemma mem_values_iff (hadv : (t.opened inputs choices).Advances ids s) (hc : t.Complete s.values)
    {n : String} : n ∈ s.values ↔ n ∈ (t.opened inputs choices).values ∨ n ∈ t.keyNames := by
  constructor
  · intro hmem
    by_cases hnew : n ∈ (t.opened inputs choices).values
    · exact .inl hnew
    · obtain ⟨v, hv⟩ := mem_iff_exists.mp hmem
      obtain ⟨rule, hrule, -⟩ := gives_of_advances hadv hnew hv
      obtain ⟨k, kind, hk, -⟩ := exists_key_of_rule? hrule
      exact .inr (List.mem_map.mpr ⟨k, mem_keys_of_key? hk, name_of_key? hk⟩)
  · rintro (hmem | hmem)
    · exact hadv.extends_values.mem hmem
    · obtain ⟨k, hk, rfl⟩ := List.mem_map.mp hmem
      exact hc k hk

/-- **A resolution** is a pass over all keys of the opened session, and a look at the table that
results for each folder. -/
theorem resolve_eq_ok_iff (hn : t.keyNames.Nodup) {a : Answers} {r : ResolvedTemplate} :
    t.resolve ids a = .ok r ↔ (∀ c ∈ a.cases.toList, t.CanApply c) ∧
      ∃ s, (t.opened a.inputs a.cases.toList).resolveAll ids a.inputs = (.ok (), s) ∧
        (∀ f ∈ t.folders, ∀ n ∈ Placeholder.references f.rename, n ∈ s.values) ∧
        r = ⟨t.name, s.values, t.folders.map fun f => ⟨f.source, f.targetIn s.values⟩⟩ := by
  unfold Template.resolve
  generalize a.cases.toList = choices
  rcases hcases : ((Session.start t).absorbInputs a.inputs).applyCases choices with ⟨e | u, s⟩
  · have hno : ¬ ∀ c ∈ choices, t.CanApply c := fun h => by
      simp [applyCases_start_iff.mpr ⟨h, rfl⟩] at hcases
    simp only [reduceCtorEq, hno, false_and]
  obtain ⟨hcan, rfl⟩ := applyCases_start_iff.mp hcases
  rw [and_iff_right hcan]
  rcases hall : (t.opened a.inputs choices).resolveAll ids a.inputs with ⟨e | u, s⟩
  · simp [hall]
  have ht : s.template = t := (advances_of_resolveAll hn hall).template.trans template_opened
  have hc : s.template.Complete s.values := ht ▸ complete_of_resolveAll hn hall
  simp only [hall, Session.resolveFolders, ht]
  rcases hf : s.resolveFolderList ids t.folders with ⟨e | folders, s'⟩
  · have hno : ¬ ∀ f ∈ t.folders, ∀ n ∈ Placeholder.references f.rename, n ∈ s.values := fun h => by
      simp [(Session.resolveFolderList_ok_iff ids hc).mpr ⟨rfl, rfl, h⟩] at hf
    simp [hno]
  · obtain ⟨rfl, rfl, hrefs⟩ := (Session.resolveFolderList_ok_iff ids hc).mp hf
    constructor
    · intro h
      exact ⟨_, rfl, hrefs, (Except.ok.inj h).symm⟩
    · rintro ⟨s₁, h₁, -, rfl⟩
      obtain rfl := (Prod.mk.inj h₁).2
      rfl

end Template

end Stencil

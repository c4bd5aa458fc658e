import Stencil.Proofs.Resolution.Cycles
import Stencil.Proofs.Resolution.Operations

/-!
Why requests fail.

A request fails at one name: no key has it, the type of its key is no kind, its key has no rule, or
it waits for itself. Nothing is computed after that, so a name at which a request has failed has no
value in the table that is left behind.
-/

namespace Stencil

/-- What computing the keys of a template fails with, and why, when it leaves the values behind. -/
inductive Template.Fails (t : Template) (values : Bindings) : ResolveError → Prop
  | undefinedSymbol {name : String} (hnew : name ∉ values) (hkey : t.key? name = none) :
    t.Fails values (.undefinedSymbol name)
  | unknownKind {k : Key} (hk : k ∈ t.keys) (hkind : k.kind? = none) :
    t.Fails values (.unknownKind k.name k.typeTag)
  | noRule {k : Key} {kind : KeyKind} {e : ResolveError} (hk : k ∈ t.keys)
    (hkind : k.kind? = some kind) (hnew : k.name ∉ values) (hrule : Rule.ofKey kind k = .error e) :
    t.Fails values e
  | cyclicReference {chain : List String} (h : t.Circle values chain) :
    t.Fails values (.cyclicReference chain)

/-! ### Rules -/

namespace Rule

variable {kind : KeyKind} {k : Key}

/-- A key has no rule because it is an input, or because it lacks an attribute that its kind
requires. -/
lemma error_of_ofKey {e : ResolveError} (h : ofKey kind k = .error e) :
    kind = .input ∧ e = .missingInput k.name ∨
      ∃ attr ∈ kind.requiredAttributes, k.attr? attr = none ∧
        e = .missingAttribute k.name attr := by
  have hneed : ∀ attr ∈ kind.requiredAttributes, k.need attr = .error e →
      ∃ attr ∈ kind.requiredAttributes, k.attr? attr = none ∧
        e = .missingAttribute k.name attr := by
    intro attr hattr hn
    unfold Key.need at hn
    split at hn
    · simp at hn
    · next hnone => exact ⟨attr, hattr, hnone, (Except.error.inj hn).symm⟩
  cases kind <;>
    simp only [ofKey, bind_eq_error_iff, pure, Except.pure, reduceCtorEq, and_false, exists_false,
      or_false] at h
  case input => exact .inl ⟨rfl, (Except.error.inj h).symm⟩
  case value | lowercase | uppercase | concatenate =>
    exact .inr (hneed _ (by simp [KeyKind.requiredAttributes]) h)
  case escape =>
    rcases h with h | ⟨_, -, h⟩ <;> exact .inr (hneed _ (by simp [KeyKind.requiredAttributes]) h)
  case replace =>
    rcases h with h | ⟨_, -, h | ⟨_, -, h⟩⟩ <;>
      exact .inr (hneed _ (by simp [KeyKind.requiredAttributes]) h)

/-- The attributes that a key can turn out to lack are those that its kind requires. -/
lemma lacks_of_ofKey {name attr : String}
    (h : ofKey kind k = .error (.missingAttribute name attr)) :
    attr ∈ kind.requiredAttributes ∧ k.attr? attr = none := by
  rcases error_of_ofKey h with ⟨-, he⟩ | ⟨attr', hattr, hnone, he⟩
  · simp at he
  · obtain ⟨-, rfl⟩ := ResolveError.missingAttribute.inj he
    exact ⟨hattr, hnone⟩

end Rule

lemma Template.Fails.lacks {t : Template} {values : Bindings} {name attr : String}
    (h : t.Fails values (.missingAttribute name attr)) :
    ∃ k ∈ t.keys, ∃ kind, k.kind? = some kind ∧ attr ∈ kind.requiredAttributes ∧
      k.attr? attr = none := by
  cases h with
  | noRule hk hkind _ hrule => exact ⟨_, hk, _, hkind, Rule.lacks_of_ofKey hrule⟩

/-! ### Demands -/

section Demands

variable {ids : IdSource} {ask : String → Progress → Attempt String} {p q : Progress}
  {e : ResolveError}

lemma exists_ask_of_askAll {names : List String} (h : askAll ask names p = (.error e, q)) :
    ∃ n ∈ names, ∃ m, ask n m = (.error e, q) := by
  induction names generalizing p with
  | nil => simp [askAll] at h
  | cons n names ih =>
    unfold askAll at h
    split at h
    · obtain ⟨n', hn', hask⟩ := ih h
      exact ⟨n', List.mem_cons_of_mem _ hn', hask⟩
    · next hn =>
      obtain ⟨rfl, rfl⟩ := error_mk_inj h
      exact ⟨n, List.mem_cons_self, p, hn⟩

lemma exists_ask_of_interpolateWith {format : String}
    (h : interpolateWith ask format p = (.error e, q)) :
    ∃ n ∈ Placeholder.references format, ∃ m, ask n m = (.error e, q) := by
  unfold interpolateWith at h
  split at h
  · simp at h
  · next hall =>
    obtain ⟨rfl, rfl⟩ := error_mk_inj h
    exact exists_ask_of_askAll hall

lemma Rule.exists_ask_of_eval {rule : Rule} {name : String}
    (h : rule.eval ids ask name p = (.error e, q)) :
    ∃ n ∈ rule.references, ∃ m, ask n m = (.error e, q) := by
  cases rule with
  | constant value => simp [Rule.eval] at h
  | identifier => simp [Rule.eval] at h
  | formatted format transform =>
    simp only [Rule.eval] at h
    split at h
    · simp at h
    · next hi =>
      obtain ⟨rfl, rfl⟩ := error_mk_inj h
      exact exists_ask_of_interpolateWith hi

/-- A key cannot be computed if it has no rule, or if something that it refers to cannot. -/
lemma Key.exists_ask_of_compute {kind : KeyKind} {k : Key}
    (h : k.compute ids ask kind p = (.error e, q)) :
    Rule.ofKey kind k = .error e ∧ q = p ∨
      ∃ n ∈ k.referencesAs kind, ∃ m, ask n m = (.error e, q) := by
  unfold Key.compute at h
  split at h
  · next hrule =>
    obtain ⟨rfl, rfl⟩ := error_mk_inj h
    exact .inl ⟨hrule, rfl⟩
  · next rule hrule =>
    split at h
    · simp at h
    · next heval =>
      obtain ⟨rfl, rfl⟩ := error_mk_inj h
      rw [← Rule.references_ofKey hrule]
      exact .inr (Rule.exists_ask_of_eval heval)

/-- A key that cannot be computed has no value in the end, if no other key that is asked for on the
way is it. -/
lemma Asks.not_mem_of_compute {rules : String → Rule → Prop} (h : Asks ids rules ask)
    {kind : KeyKind} {k : Key} (hc : k.compute ids ask kind p = (.error e, q))
    (hnew : k.name ∉ p.values) (hother : ∀ rule, ¬ rules k.name rule) : k.name ∉ q.values := by
  unfold Key.compute at hc
  split at hc
  · obtain ⟨-, rfl⟩ := error_mk_inj hc
    exact hnew
  · split at hc
    · simp at hc
    · next heval =>
      obtain ⟨-, rfl⟩ := error_mk_inj hc
      exact (h.run_eval_error heval).not_mem hnew hother

/-- A key that is computed while others wait has no rule, or waits for what it refers to. -/
lemma Template.compute_fails {t : Template} {fixed waiting : List String} {kind : KeyKind} {k : Key}
    (hk : k ∈ t.keys) (hkind : k.kind? = some kind) (hnew : k.name ∉ p.values)
    (hw : k.name ∉ waiting)
    (h : k.compute ids (t.demand ids fixed (k.name :: waiting)) kind p = (.error e, q))
    (hwaits : t.Waits q.values waiting k.name) : t.Fails q.values e ∨
      ∃ n m, t.demand ids fixed (k.name :: waiting) n m = (.error e, q) ∧
        t.Waits q.values (k.name :: waiting) n := by
  have hstays : k.name ∉ q.values :=
    (t.demand_asks ids fixed (k.name :: waiting)).not_mem_of_compute h hnew
      (by simp [Template.Applies])
  obtain ⟨hrule, rfl⟩ | ⟨n, hn, m, hask⟩ := Key.exists_ask_of_compute h
  · exact .inl (.noRule hk hkind hnew hrule)
  · exact .inr ⟨n, m, hask, hwaits.cons hw hstays (Template.refers_of_mem hk hkind hn)⟩

/-- **A demand fails at one name**, which is that of the last demand that was made. -/
theorem Template.demand_fails {t : Template} {fixed waiting : List String} {name : String}
    (h : t.demand ids fixed waiting name p = (.error e, q))
    (hwaits : t.Waits q.values waiting name) : t.Fails q.values e := by
  induction waiting, name, p using demand.induct t generalizing q with
  | case1 waiting name p value hv => simp [demand_of_value hv] at h
  | case2 waiting name p hv hk =>
    rw [demand_of_key?_eq_none hv hk] at h
    obtain ⟨rfl, rfl⟩ := error_mk_inj h
    exact .undefinedSymbol (getElem?_eq_none_iff.mp hv) hk
  | case3 waiting name p hv k hk hkind =>
    rw [demand_of_kind?_eq_none hv hk hkind] at h
    obtain ⟨rfl, rfl⟩ := error_mk_inj h
    exact .unknownKind (mem_keys_of_key? hk) hkind
  | case4 waiting name p hv k hk kind hkind hw =>
    rw [demand_of_kind? hv hk hkind, if_pos hw] at h
    obtain ⟨rfl, rfl⟩ := error_mk_inj h
    exact .cyclicReference (hwaits.circle hw)
  | case5 waiting name p hv k hk kind hkind hw ih =>
    rw [demand_of_kind? hv hk hkind, if_neg hw] at h
    obtain rfl := name_of_key? hk
    obtain hfails | ⟨n, m, hask, hwaits⟩ :=
      compute_fails (mem_keys_of_key? hk) hkind (getElem?_eq_none_iff.mp hv) hw h hwaits
    · exact hfails
    · exact ih n m hask hwaits

end Demands

/-! ### Sessions -/

namespace Session

variable {ids : IdSource} {s s' : Session} {e : ResolveError}

lemma resolveSymbol_fails {name : String} (h : s.resolveSymbol ids name = (.error e, s')) :
    s.template.Fails s'.values e := by
  obtain ⟨hr, rfl⟩ := Prod.mk.inj h
  exact Template.demand_fails (Prod.ext hr rfl) (.nil _ _ name)

lemma interpolate_fails {format : String} (h : s.interpolate ids format = (.error e, s')) :
    s.template.Fails s'.values e := by
  obtain ⟨hr, rfl⟩ := Prod.mk.inj h
  obtain ⟨n, -, m, hask⟩ := exists_ask_of_interpolateWith (Prod.ext hr rfl)
  exact Template.demand_fails hask (.nil _ _ n)

/-- The key is handled as what it is. -/
lemma evaluate_fails {kind : KeyKind} {k : Key} (hk : k ∈ s.template.keys)
    (hkind : k.kind? = some kind) (h : s.evaluate ids kind k = (.error e, s')) :
    s.template.Fails s'.values e := by
  unfold evaluate at h
  split at h
  · simp at h
  · next hv =>
    rcases hc : k.compute ids (s.template.demand ids s.overridden [k.name]) kind s.progress
      with ⟨r, q⟩
    rw [hc] at h
    obtain ⟨rfl, rfl⟩ := Prod.mk.inj h
    obtain hfails | ⟨n, m, hask, hwaits⟩ := Template.compute_fails hk hkind
      (getElem?_eq_none_iff.mp hv) List.not_mem_nil hc (.nil _ _ k.name)
    · exact hfails
    · exact Template.demand_fails hask hwaits

lemma handle_fails {kind : KeyKind} {ks : List Key}
    (hks : ∀ k ∈ ks, k ∈ s.template.keys ∧ k.kind? = some kind)
    (h : s.handle ids kind ks = (.error e, s')) : s.template.Fails s'.values e := by
  induction ks generalizing s with
  | nil => simp [handle] at h
  | cons k ks ih =>
    obtain ⟨⟨hk, hkind⟩, hks⟩ := List.forall_mem_cons.mp hks
    unfold handle at h
    split at h
    · next he =>
      obtain ⟨rfl, rfl⟩ := error_mk_inj h
      exact evaluate_fails hk hkind he
    · next s₁ he =>
      have ht : s₁.template = s.template := (evaluate_proceeds he).template
      split at h
      · next hrest =>
        obtain ⟨rfl, rfl⟩ := error_mk_inj h
        exact ht ▸ ih (ht ▸ hks) hrest
      · simp at h

lemma handleKinds_fails {kinds : List KeyKind} (h : s.handleKinds ids kinds = (.error e, s')) :
    s.template.Fails s'.values e := by
  induction kinds generalizing s with
  | nil => simp [handleKinds] at h
  | cons kind kinds ih =>
    unfold handleKinds at h
    split at h
    · next hh =>
      obtain ⟨rfl, rfl⟩ := error_mk_inj h
      exact handle_fails (fun k hk => Template.mem_keysOfKind_iff.mp hk) hh
    · next s₁ hh =>
      have ht : s₁.template = s.template := (handle_proceeds hh).template
      rw [merge_of_handle hh] at h
      exact ht ▸ ih h

lemma obstacle_fails (h : s.obstacle? = some e) : s.template.Fails s.values e := by
  unfold obstacle? at h
  split at h
  · next k hfind =>
    obtain rfl := Option.some.inj h
    exact .unknownKind (List.mem_of_find?_eq_some hfind) (by simpa using List.find?_some hfind)
  · split at h
    · next k hfind =>
      obtain rfl := Option.some.inj h
      obtain ⟨hk, hkind⟩ := Template.mem_keysOfKind_iff.mp (List.mem_of_find?_eq_some hfind)
      have hnew : k.name ∉ s.values := by
        simpa [← Std.ExtTreeMap.contains_iff_mem] using List.find?_some hfind
      exact .noRule hk hkind hnew rfl
    · simp at h

lemma resolveAll_fails {inputs : Bindings} (h : s.resolveAll ids inputs = (.error e, s')) :
    s.template.Fails s'.values e := by
  simp only [resolveAll] at h
  split at h
  · next hobst =>
    obtain ⟨rfl, rfl⟩ := error_mk_inj h
    exact obstacle_fails hobst
  · exact handleKinds_fails (s := s.absorbInputs inputs) h

lemma resolveFolderList_fails {fs : List Folder}
    (h : s.resolveFolderList ids fs = (.error e, s')) : s.template.Fails s'.values e := by
  induction fs generalizing s with
  | nil => simp [resolveFolderList] at h
  | cons f fs ih =>
    unfold resolveFolderList at h
    split at h
    · next hf =>
      obtain ⟨rfl, rfl⟩ := error_mk_inj h
      unfold resolveFolder at hf
      split at hf
      · exact resolveSymbol_fails hf
      · exact interpolate_fails hf
    · next s₁ hf =>
      have ht : s₁.template = s.template := (resolveFolder_advances hf).template
      split at h
      · next hrest =>
        obtain ⟨rfl, rfl⟩ := error_mk_inj h
        exact ht ▸ ih hrest
      · simp at h

end Session

/-! ### Operations -/

namespace Operation

/-- The operation computes keys. Keys that it hands in are keys of the template, as what they are. -/
def Computes (t : Template) : Operation → Prop
  | ask r => r.Fits t
  | resolveAll _ => True
  | _ => False

/-- **An operation that computes keys fails at one of them**, or at a name that none of them has. -/
theorem perform_fails {ids : IdSource} {s s' : Session} {op : Operation}
    (hop : op.Computes s.template) {e : ResolveError} (h : op.perform ids s = (.error e, s')) :
    s.template.Fails s'.values e := by
  cases op with
  | ask r =>
    cases r with
    | symbol name => exact Session.resolveSymbol_fails h
    | text format => exact Session.interpolate_fails h
    | folders => exact Session.resolveFolderList_fails h
    | keys kind ks => exact Session.handle_fails hop h
  | resolveAll inputs => exact Session.resolveAll_fails h
  | absorb inputs => exact hop.elim
  | applyCase switch case => exact hop.elim
  | select t => exact hop.elim

end Operation

end Stencil

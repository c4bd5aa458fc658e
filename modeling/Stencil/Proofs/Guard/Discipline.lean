import Mathlib.Data.List.Dedup
import Stencil.Proofs.Guard.History

/-!
The guard is kept in order.

At every moment the names on the stack are distinct and have no value, and all but the outermost one
are names of keys of the template. An operation that starts with an empty stack ends with an empty
stack, whatever it comes to, and comes to what it comes to without the stack in sight.
-/

namespace Stencil

namespace Ends

variable {α β : Type} {f : Nat → Option α} {a : α} {b : β}

lemma of_eq (h : ∀ depth, f depth = some a) : Ends f a := ⟨0, fun depth _ => h depth⟩

lemma bind {g : Nat → α → Option β} (hf : Ends f a) (hg : Ends (g · a) b) :
    Ends (fun depth => f depth >>= g depth) b := by
  obtain ⟨enough, hf⟩ := hf
  obtain ⟨enough', hg⟩ := hg
  refine ⟨max enough enough', fun depth hdepth => ?_⟩
  calc f depth >>= g depth = g depth a := by rw [hf depth (by omega)]; rfl
    _ = some b := hg depth (by omega)

/-- What ends when demands are followed one level deeper ends. -/
lemma of_succ (h : Ends (fun depth => f (depth + 1)) a) : Ends f a := by
  obtain ⟨enough, h⟩ := h
  refine ⟨enough + 1, fun depth hdepth => ?_⟩
  obtain ⟨depth, rfl⟩ := Nat.exists_eq_add_of_le' (show 1 ≤ depth by omega)
  exact h depth (by omega)

end Ends

/-- The stack of the moment is as it should be. -/
structure Moment.Orderly (m : Moment) : Prop where
  distinct : m.resolving.Nodup
  pending : ∀ n ∈ m.resolving, n ∉ m.session.values
  /-- Only the outermost key may have been handed in from outside. -/
  known : ∀ n ∈ m.resolving.tail, n ∈ m.session.template.keyNames

namespace Moment.Orderly

lemma of_resolving_eq_nil {m : Moment} (h : m.resolving = []) : m.Orderly := by
  refine ⟨?_, ?_, ?_⟩ <;> simp [h]

lemma length_le {m : Moment} (h : m.Orderly) :
    m.resolving.length ≤ m.session.template.keyNames.dedup.length + 1 := by
  have hsub : m.resolving.tail ⊆ m.session.template.keyNames.dedup := fun n hn =>
    List.mem_dedup.mpr (h.known n hn)
  have hlen := ((List.tail_sublist _).nodup h.distinct).length_le_of_subset hsub
  rw [List.length_tail] at hlen
  omega

variable {m : Moment} {name : String}

lemma push (h : m.Orderly) (hres : name ∉ m.resolving) (hnew : name ∉ m.session.values)
    (hkey : m.resolving = [] ∨ name ∈ m.session.template.keyNames) :
    Orderly { m with resolving := m.resolving ++ [name] } where
  distinct := h.distinct.append (List.nodup_singleton name) (by simpa using hres)
  pending n hn := by
    rcases List.mem_append.mp hn with hn | hn
    · exact h.pending n hn
    · rwa [List.mem_singleton.mp hn]
  known n hn := by
    rcases hkey with hkey | hkey
    · simp [hkey] at hn
    · cases hres : m.resolving with
      | nil => simp [hres] at hn
      | cons a as =>
        simp only [hres, List.cons_append, List.tail_cons, List.mem_append,
          List.mem_singleton] at hn
        rcases hn with hn | rfl
        · exact h.known n (by simpa [hres] using hn)
        · exact hkey

lemma pop (h : m.Orderly) : Orderly { m with resolving := m.resolving.dropLast } where
  distinct := (List.dropLast_sublist _).nodup h.distinct
  pending n hn := h.pending n ((List.dropLast_sublist _).mem hn)
  known n hn := h.known n ((List.dropLast_sublist _).tail.mem hn)

lemma set (h : m.Orderly) (hres : name ∉ m.resolving) (value : String) :
    Orderly { m with session := m.session.set name value } where
  distinct := h.distinct
  pending n hn hmem := by
    rcases Std.ExtTreeMap.mem_insert.mp hmem with heq | hmem
    · exact hres (Std.compare_eq_iff_eq.mp heq ▸ hn)
    · exact h.pending n hn hmem
  known := h.known

end Moment.Orderly

namespace History

variable {ids : IdSource} {h h₁ h₂ : History} {α : Type}

/-- The later history goes on from the earlier one by orderly moments only. -/
def Continues (h h' : History) : Prop :=
  ∃ later, h'.moments = later ++ h.moments ∧ ∀ m ∈ later, m.Orderly

namespace Continues

lemma refl (h : History) : h.Continues h := ⟨[], rfl, by simp⟩

lemma trans (hc : h.Continues h₁) (hc' : h₁.Continues h₂) : h.Continues h₂ := by
  obtain ⟨later, hl, hord⟩ := hc
  obtain ⟨later', hl', hord'⟩ := hc'
  refine ⟨later' ++ later, by rw [hl', hl, List.append_assoc], fun m hm => ?_⟩
  rcases List.mem_append.mp hm with hm | hm
  · exact hord' m hm
  · exact hord m hm

lemma next {m : Moment} (hm : m.Orderly) : h.Continues (h.next m) :=
  ⟨[m], rfl, by simpa using hm⟩

lemma orderly (hc : h.Continues h') (hm : ∀ m ∈ h.moments, m.Orderly) :
    ∀ m ∈ h'.moments, m.Orderly := by
  obtain ⟨later, hl, hord⟩ := hc
  intro m hmem
  rw [hl, List.mem_append] at hmem
  rcases hmem with hmem | hmem
  · exact hord m hmem
  · exact hm m hmem

lemma now_orderly (hc : h.Continues h₁) (hm : h.now.Orderly) : h₁.now.Orderly := by
  obtain ⟨later, hl, hord⟩ := hc
  cases later with
  | nil =>
    have hnow : h₁.now = h.now := (List.cons.inj hl).1
    rwa [hnow]
  | cons m later =>
    have hnow : h₁.now = m := (List.cons.inj hl).1
    exact hnow ▸ hord m List.mem_cons_self

end Continues

/-- The operation mirrors the attempt: it ends, comes to the same and leaves the same waiting. -/
def Mirrors (t : Template) (fixed waiting : List String) (f : Nat → History → Option (Ending α))
    (a : Progress → Attempt α) : Prop :=
  ∀ (h : History) (p : Progress), h.now = ⟨⟨t, p, fixed⟩, waiting.reverse⟩ → h.now.Orderly →
    ∃ h', Ends (f · h) ((a p).1, h') ∧ h'.now = ⟨⟨t, (a p).2, fixed⟩, waiting.reverse⟩ ∧
      h.Continues h'

/-! ### Rules -/

section

variable {t : Template} {fixed waiting : List String} {ask : String → Progress → Attempt String}
  {resolve : Nat → String → History → Option (Ending String)}

lemma mirrors_resolveSymbols (hs : ∀ name, Mirrors t fixed waiting (resolve · name) (ask name))
    (names : List String) :
    Mirrors t fixed waiting (fun depth => resolveSymbols (resolve depth) names)
      (askAll ask names) := by
  induction names with
  | nil =>
    intro h p hnow _
    exact ⟨h, .of_eq fun _ => rfl, hnow, .refl h⟩
  | cons name names ih =>
    intro h p hnow hord
    obtain ⟨h₁, he, hnow₁, hcont⟩ := hs name h p hnow hord
    simp only [resolveSymbols, askAll]
    generalize ask name p = o at he hnow₁ ⊢
    rcases o with ⟨e | v, q⟩
    · exact ⟨h₁, he.bind (.of_eq fun _ => rfl), hnow₁, hcont⟩
    · obtain ⟨h₂, he₂, hnow₂, hcont₂⟩ := ih h₁ q hnow₁ (hcont.now_orderly hord)
      exact ⟨h₂, he.bind he₂, hnow₂, hcont.trans hcont₂⟩

lemma mirrors_interpolate (hs : ∀ name, Mirrors t fixed waiting (resolve · name) (ask name))
    (format : String) :
    Mirrors t fixed waiting (fun depth => interpolate (resolve depth) format)
      (interpolateWith ask format) := by
  intro h p hnow hord
  obtain ⟨h₁, he, hnow₁, hcont⟩ := mirrors_resolveSymbols hs (Placeholder.references format) h p
    hnow hord
  simp only [interpolate, interpolateWith]
  generalize askAll ask (Placeholder.references format) p = o at he hnow₁ ⊢
  rcases o with ⟨e | u, q⟩
  · exact ⟨h₁, he.bind (.of_eq fun _ => rfl), hnow₁, hcont⟩
  · refine ⟨h₁, he.bind (.of_eq fun _ => ?_), hnow₁, hcont⟩
    simp [hnow₁, Session.values]

lemma mirrors_apply (ids : IdSource)
    (hs : ∀ name, Mirrors t fixed waiting (resolve · name) (ask name)) (name : String) (rule : Rule) :
    Mirrors t fixed waiting (fun depth => apply ids (resolve depth) name rule)
      (rule.eval ids ask name) := by
  intro h p hnow hord
  cases rule with
  | constant value => exact ⟨h, .of_eq fun _ => rfl, hnow, .refl h⟩
  | identifier =>
    refine ⟨h.issue, .of_eq fun _ => ?_, ?_, .next ?_⟩
    · simp only [apply, hnow, Rule.eval]
    · simp only [issue, update, next, hnow, Rule.eval]
    · exact ⟨hord.distinct, hord.pending, hord.known⟩
  | formatted format transform =>
    obtain ⟨h₁, he, hnow₁, hcont⟩ := mirrors_interpolate hs format h p hnow hord
    simp only [apply, Rule.eval]
    generalize interpolateWith ask format p = o at he hnow₁ ⊢
    rcases o with ⟨e | text, q⟩
    · exact ⟨h₁, he.bind (.of_eq fun _ => rfl), hnow₁, hcont⟩
    · exact ⟨h₁, he.bind (.of_eq fun _ => rfl), hnow₁, hcont⟩

/-- While a key is computed its name is on the stack, whatever comes of it. -/
lemma evaluate_of_idle {k : Key} {kind : KeyKind}
    (hs : ∀ name, Mirrors t fixed (k.name :: waiting) (resolve · name) (ask name))
    (hidle : k.name ∉ waiting) (hkey : waiting = [] ∨ k.name ∈ t.keyNames)
    {p : Progress} (hnow : h.now = ⟨⟨t, p, fixed⟩, waiting.reverse⟩) (hord : h.now.Orderly)
    (hv : k.name ∉ p.values) :
    ∃ h', Ends (fun depth => evaluate ids (resolve depth) kind k h)
        ((k.compute ids ask kind p).1, h') ∧
      h'.now = ⟨⟨t, (k.compute ids ask kind p).2, fixed⟩, waiting.reverse⟩ ∧ h.Continues h' := by
  have hv' : h.now.session.values[k.name]? = none := by
    rw [hnow]
    exact getElem?_eq_none_iff.mpr hv
  have hres : k.name ∉ h.now.resolving := by simpa [hnow] using hidle
  simp only [evaluate, Key.compute, hv', if_neg hres]
  cases hrule : Rule.ofKey kind k with
  | error e => exact ⟨h, .of_eq fun _ => rfl, hnow, .refl h⟩
  | ok rule =>
    have hpush : (h.push k.name).now = ⟨⟨t, p, fixed⟩, (k.name :: waiting).reverse⟩ := by
      simp [push, next, hnow]
    have hord₁ : (h.push k.name).now.Orderly :=
      hord.push hres (by rwa [hnow]) (by simpa [hnow] using hkey)
    obtain ⟨h₁, he, hnow₁, hcont⟩ := mirrors_apply ids hs k.name rule _ p hpush hord₁
    have hpop : h₁.pop.now = ⟨⟨t, (rule.eval ids ask k.name p).2, fixed⟩, waiting.reverse⟩ := by
      simp [pop, next, hnow₁]
    have hord₂ : h₁.pop.now.Orderly := (hcont.now_orderly hord₁).pop
    have hcont₂ : h.Continues h₁.pop := (Continues.next hord₁).trans (hcont.trans (.next hord₂))
    dsimp only
    generalize rule.eval ids ask k.name p = o at he hpop ⊢
    rcases o with ⟨e | value, q⟩
    · exact ⟨h₁.pop, he.bind (.of_eq fun _ => rfl), hpop, hcont₂⟩
    · have hord₃ : (h₁.pop.set k.name value).now.Orderly :=
        hord₂.set (by simpa [hpop] using hidle) value
      exact ⟨h₁.pop.set k.name value, he.bind (.of_eq fun _ => rfl),
        by simp [History.set, update, next, hpop, Session.set], hcont₂.trans (.next hord₃)⟩

end

/-! ### Demands -/

variable {t : Template} {fixed waiting : List String} {p : Progress}

lemma setAll_spec {entries : Bindings} {stack : List String}
    (hnow : h.now = ⟨⟨t, p, fixed⟩, stack⟩) (hord : h.now.Orderly)
    (hout : ∀ n ∈ stack, n ∉ entries) :
    (h.setAll entries).now = ⟨⟨t, p.enterAll fixed entries, fixed⟩, stack⟩ ∧
      h.Continues (h.setAll entries) := by
  unfold setAll Progress.enterAll
  have hout' : ∀ e ∈ entries.toList, e.1 ∉ stack := fun e he hmem =>
    hout e.1 hmem (mem_iff_exists.mpr
      ⟨e.2, Std.ExtTreeMap.mem_toList_iff_getElem?_eq_some.mp he⟩)
  generalize entries.toList = es at hout'
  induction es generalizing h p with
  | nil => exact ⟨hnow, .refl h⟩
  | cons e es ih =>
    obtain ⟨he, hes⟩ := List.forall_mem_cons.mp hout'
    rw [List.foldl_cons, List.foldl_cons]
    by_cases hf : e.1 ∈ fixed
    · rw [if_pos (by simpa [hnow] using hf), if_pos hf]
      exact ih hnow hord hes
    · rw [if_neg (by simpa [hnow] using hf), if_neg hf]
      have hord₁ : (h.set e.1 e.2).now.Orderly := hord.set (by simpa [hnow] using he) e.2
      have hnow₁ : (h.set e.1 e.2).now = ⟨⟨t, p.enter e.1 e.2, fixed⟩, stack⟩ := by
        simp [History.set, update, next, hnow, Session.set]
      obtain ⟨hlast, hcont⟩ := ih hnow₁ hord₁ hes
      exact ⟨hlast, (Continues.next hord₁).trans hcont⟩

/-- Setting what was computed once more changes nothing but the history. -/
lemma setAll_of_value {name value : String} (hnow : h.now = ⟨⟨t, p, fixed⟩, waiting.reverse⟩)
    (hord : h.now.Orderly) (hv : p.values[name]? = some value) :
    (h.setAll ((∅ : Bindings).insertIfNew name value)).now = h.now ∧
      h.Continues (h.setAll ((∅ : Bindings).insertIfNew name value)) := by
  have hentry : ∀ n v : String, ((∅ : Bindings).insertIfNew name value)[n]? = some v →
      p.values[n]? = some v := by
    intro n v h
    rw [Std.ExtTreeMap.getElem?_insertIfNew] at h
    split at h
    · next hn => rw [← Std.compare_eq_iff_eq.mp hn.1, hv, h]
    · simp at h
  have hout : ∀ n ∈ waiting.reverse, n ∉ (∅ : Bindings).insertIfNew name value := by
    intro n hn hmem
    obtain ⟨v, h⟩ := mem_iff_exists.mp hmem
    have hpending := hord.pending n (by rwa [hnow])
    rw [hnow] at hpending
    exact hpending (mem_iff_exists.mpr ⟨v, hentry n v h⟩)
  have hspec := setAll_spec hnow hord hout
  rwa [Progress.enterAll_eq_self fun n v h _ => hentry n v h, ← hnow] at hspec

/-- **Demands** are met with the stack as with the waiting names. -/
theorem mirrors_resolveSymbol (ids : IdSource) (t : Template) (fixed waiting : List String)
    (name : String) :
    Mirrors t fixed waiting (resolveSymbol ids · name) (t.demand ids fixed waiting name) := by
  intro h p hnow hord
  induction waiting, name, p using Template.demand.induct t generalizing h with
  | case1 waiting name p value hv =>
    rw [Template.demand_of_value hv]
    refine ⟨h, .of_succ (.of_eq fun _ => ?_), hnow, .refl h⟩
    simp [resolveSymbol, hnow, Session.values, hv]
  | case2 waiting name p hv hk =>
    rw [Template.demand_of_key?_eq_none hv hk]
    refine ⟨h, .of_succ (.of_eq fun _ => ?_), hnow, .refl h⟩
    simp [resolveSymbol, hnow, Session.values, hv, hk]
  | case3 waiting name p hv k hk hkind =>
    rw [Template.demand_of_kind?_eq_none hv hk hkind]
    refine ⟨h, .of_succ (.of_eq fun _ => ?_), hnow, .refl h⟩
    simp [resolveSymbol, hnow, Session.values, hv, hk, hkind]
  | case4 waiting name p hv k hk kind hkind hw =>
    obtain rfl := Template.name_of_key? hk
    rw [Template.demand_of_kind? hv hk hkind, if_pos hw]
    refine ⟨h, .of_succ (.of_eq fun _ => ?_), hnow, .refl h⟩
    simp [resolveSymbol, hnow, Session.values, hv, hk, hkind, handle, evaluate, hw, cycle]
  | case5 waiting name p hv k hk kind hkind hw ih =>
    obtain rfl := Template.name_of_key? hk
    rw [Template.demand_of_kind? hv hk hkind, if_neg hw]
    have hkey : k.name ∈ t.keyNames := List.mem_map_of_mem (Template.mem_keys_of_key? hk)
    have hasks : ∀ n, Mirrors t fixed (k.name :: waiting) (resolveSymbol ids · n)
        (t.demand ids fixed (k.name :: waiting) n) := fun n h q => ih n q h
    obtain ⟨h₁, he, hnow₁, hcont⟩ :=
      evaluate_of_idle hasks hw (.inr hkey) hnow hord (getElem?_eq_none_iff.mp hv)
    have hord₁ := hcont.now_orderly hord
    rcases hc : k.compute ids (t.demand ids fixed (k.name :: waiting)) kind p with ⟨e | value, q⟩
    · rw [hc] at he hnow₁
      refine ⟨h₁, .of_succ ?_, hnow₁, hcont⟩
      simp only [resolveSymbol, hnow, Session.values, hv, hk, hkind, handle]
      exact .bind (.bind he (.of_eq fun _ => rfl)) (.of_eq fun _ => rfl)
    · rw [hc] at he hnow₁
      have hfound := Key.found_compute hc
      obtain ⟨hsame, hcont₁⟩ := setAll_of_value hnow₁ hord₁ hfound
      refine ⟨_, .of_succ ?_, hsame.trans hnow₁, hcont.trans hcont₁⟩
      simp only [resolveSymbol, hnow, Session.values, hv, hk, hkind, handle]
      refine .bind (.bind he (.of_eq fun _ => rfl)) (.of_eq fun _ => ?_)
      simp [hsame, hnow₁, hfound]

/-! ### Operations -/

/-- The operation ends, comes to the outcome and leaves the stack empty. -/
def Follows (h : History) (f : Nat → Option (Ending α)) (o : Outcome α) : Prop :=
  ∃ h', Ends f (o.1, h') ∧ h'.now = ⟨o.2, []⟩ ∧ h.Continues h'

variable {s : Session}

lemma Mirrors.follows {f : Nat → History → Option (Ending α)} {a : Progress → Attempt α}
    (hm : Mirrors s.template s.overridden [] f a) (hnow : h.now = ⟨s, []⟩) :
    h.Follows (f · h) (s.keep (a s.progress)) :=
  hm h s.progress hnow (.of_resolving_eq_nil (by rw [hnow]))

lemma resolveSymbol_follows (ids : IdSource) (hnow : h.now = ⟨s, []⟩) (name : String) :
    h.Follows (h.resolveSymbol ids · name) (s.resolveSymbol ids name) :=
  (mirrors_resolveSymbol ids _ _ _ name).follows hnow

lemma interpolate_follows (ids : IdSource) (hnow : h.now = ⟨s, []⟩) (format : String) :
    h.Follows (fun depth => h.interpolate (resolveSymbol ids depth) format)
      (s.interpolate ids format) :=
  (mirrors_interpolate (mirrors_resolveSymbol ids _ _ _) format).follows hnow

lemma evaluate_follows (ids : IdSource) (hnow : h.now = ⟨s, []⟩) (kind : KeyKind) (k : Key) :
    h.Follows (fun depth => h.evaluate ids (resolveSymbol ids depth) kind k)
      (s.evaluate ids kind k) := by
  unfold Session.evaluate
  cases hv : s.values[k.name]? with
  | some value =>
    refine ⟨h, .of_eq fun _ => ?_, hnow, .refl h⟩
    simp only [evaluate, hnow, hv]
  | none =>
    exact evaluate_of_idle (mirrors_resolveSymbol ids _ _ _) (by simp) (.inl rfl) hnow
      (.of_resolving_eq_nil (by rw [hnow])) (getElem?_eq_none_iff.mp hv)

lemma handle_follows (ids : IdSource) (hnow : h.now = ⟨s, []⟩) (kind : KeyKind) (ks : List Key) :
    h.Follows (fun depth => h.handle ids (resolveSymbol ids depth) kind ks)
      (s.handle ids kind ks) := by
  induction ks generalizing h s with
  | nil => exact ⟨h, .of_eq fun _ => rfl, hnow, .refl h⟩
  | cons k ks ih =>
    obtain ⟨h₁, he, hnow₁, hcont⟩ := evaluate_follows ids hnow kind k
    simp only [handle, Session.handle]
    generalize s.evaluate ids kind k = o at he hnow₁ ⊢
    rcases o with ⟨e | value, s₁⟩
    · exact ⟨h₁, he.bind (.of_eq fun _ => rfl), hnow₁, hcont⟩
    · obtain ⟨h₂, he₂, hnow₂, hcont₂⟩ := ih hnow₁
      dsimp only
      generalize s₁.handle ids kind ks = o at he₂ hnow₂ ⊢
      rcases o with ⟨e | rest, s₂⟩
      · exact ⟨h₂, he.bind (he₂.bind (.of_eq fun _ => rfl)), hnow₂, hcont.trans hcont₂⟩
      · exact ⟨h₂, he.bind (he₂.bind (.of_eq fun _ => rfl)), hnow₂, hcont.trans hcont₂⟩

/-- Several values are set with an empty stack. -/
lemma setAll_idle (hnow : h.now = ⟨s, []⟩) (entries : Bindings) :
    (h.setAll entries).now = ⟨s.merge entries, []⟩ ∧ h.Continues (h.setAll entries) :=
  setAll_spec hnow (.of_resolving_eq_nil (by rw [hnow])) (by simp)

lemma handleKinds_follows (ids : IdSource) (hnow : h.now = ⟨s, []⟩) (kinds : List KeyKind) :
    h.Follows (h.handleKinds ids · kinds) (s.handleKinds ids kinds) := by
  induction kinds generalizing h s with
  | nil => exact ⟨h, .of_eq fun _ => rfl, hnow, .refl h⟩
  | cons kind kinds ih =>
    obtain ⟨h₁, he, hnow₁, hcont⟩ := handle_follows ids hnow kind (s.template.keysOfKind kind)
    simp only [handleKinds, Session.handleKinds, hnow]
    generalize s.handle ids kind (s.template.keysOfKind kind) = o at he hnow₁ ⊢
    rcases o with ⟨e | handled, s₁⟩
    · exact ⟨h₁, he.bind (.of_eq fun _ => rfl), hnow₁, hcont⟩
    · obtain ⟨hnow₂, hcont₂⟩ := setAll_idle hnow₁ handled
      obtain ⟨h₃, he₃, hnow₃, hcont₃⟩ := ih hnow₂
      exact ⟨h₃, he.bind he₃, hnow₃, hcont.trans (hcont₂.trans hcont₃)⟩

lemma resolveAll_follows (ids : IdSource) (hnow : h.now = ⟨s, []⟩) (inputs : Bindings) :
    h.Follows (h.resolveAll ids · inputs) (s.resolveAll ids inputs) := by
  obtain ⟨hnow₁, hcont⟩ := setAll_idle hnow inputs
  have hsame : s.merge inputs = s.absorbInputs inputs := rfl
  rw [hsame] at hnow₁
  simp only [resolveAll, Session.resolveAll, hnow₁]
  cases (s.absorbInputs inputs).obstacle? with
  | some e => exact ⟨_, .of_eq fun _ => rfl, hnow₁, hcont⟩
  | none =>
    obtain ⟨h₂, he₂, hnow₂, hcont₂⟩ := handleKinds_follows ids hnow₁ KeyKind.computed
    exact ⟨h₂, he₂, hnow₂, hcont.trans hcont₂⟩

lemma resolveFolder_follows (ids : IdSource) (hnow : h.now = ⟨s, []⟩) (f : Folder) :
    h.Follows (h.resolveFolder ids · f) (s.resolveFolder ids f) := by
  unfold resolveFolder Session.resolveFolder
  rw [hnow]
  split
  · exact resolveSymbol_follows ids hnow f.rename
  · exact interpolate_follows ids hnow f.rename

lemma resolveFolderList_follows (ids : IdSource) (hnow : h.now = ⟨s, []⟩) (fs : List Folder) :
    h.Follows (h.resolveFolderList ids · fs) (s.resolveFolderList ids fs) := by
  induction fs generalizing h s with
  | nil => exact ⟨h, .of_eq fun _ => rfl, hnow, .refl h⟩
  | cons f fs ih =>
    obtain ⟨h₁, he, hnow₁, hcont⟩ := resolveFolder_follows ids hnow f
    simp only [resolveFolderList, Session.resolveFolderList]
    generalize s.resolveFolder ids f = o at he hnow₁ ⊢
    rcases o with ⟨e | target, s₁⟩
    · exact ⟨h₁, he.bind (.of_eq fun _ => rfl), hnow₁, hcont⟩
    · obtain ⟨h₂, he₂, hnow₂, hcont₂⟩ := ih hnow₁
      dsimp only
      generalize s₁.resolveFolderList ids fs = o at he₂ hnow₂ ⊢
      rcases o with ⟨e | rest, s₂⟩
      · exact ⟨h₂, he.bind (he₂.bind (.of_eq fun _ => rfl)), hnow₂, hcont.trans hcont₂⟩
      · exact ⟨h₂, he.bind (he₂.bind (.of_eq fun _ => rfl)), hnow₂, hcont.trans hcont₂⟩

lemma applyCase_follows (hnow : h.now = ⟨s, []⟩) (switch case : String) :
    h.Follows (fun _ => some (h.applyCase switch case)) (s.applyCase switch case) := by
  unfold applyCase Session.applyCase
  rw [hnow]
  cases (s.template.switch? switch).bind (·.case? case) with
  | none => exact ⟨h, .of_eq fun _ => rfl, hnow, .refl h⟩
  | some c =>
    dsimp only
    cases Session.overridesOf c with
    | error e => exact ⟨h, .of_eq fun _ => rfl, hnow, .refl h⟩
    | ok entries =>
      refine ⟨_, .of_eq fun _ => rfl, ?_⟩
      induction entries generalizing h s with
      | nil => exact ⟨hnow, .refl h⟩
      | cons e es ih =>
        have hnow₁ : (h.update (h.now.session.override e.1 e.2)).now = ⟨s.override e.1 e.2, []⟩ := by
          simp [update, next, hnow]
        obtain ⟨hlast, hcont⟩ := ih hnow₁
        exact ⟨hlast, (Continues.next (.of_resolving_eq_nil (by rw [hnow]))).trans hcont⟩

/-- **One operation** ends with an empty stack if it starts with one. -/
theorem perform_follows (ids : IdSource) (hnow : h.now = ⟨s, []⟩) (op : Operation) :
    h.Follows (h.perform ids · op) (op.perform ids s) := by
  cases op with
  | ask r =>
    cases r with
    | symbol name => exact resolveSymbol_follows ids hnow name
    | text format => exact interpolate_follows ids hnow format
    | folders =>
      have hfs : h.now.session.template.folders = s.template.folders := by rw [hnow]
      simp only [perform, hfs]
      exact resolveFolderList_follows ids hnow s.template.folders
    | keys kind ks => exact handle_follows ids hnow kind ks
  | resolveAll inputs => exact resolveAll_follows ids hnow inputs
  | absorb inputs =>
    obtain ⟨hnow₁, hcont⟩ := setAll_idle hnow inputs
    exact ⟨_, .of_eq fun _ => rfl, hnow₁, hcont⟩
  | applyCase switch case => exact applyCase_follows hnow switch case
  | select t =>
    exact ⟨_, .of_eq fun _ => rfl, by rw [hnow]; rfl, .next (.of_resolving_eq_nil rfl)⟩

/-- **All operations** end, one after the other, and come to the session that they come to without
the stack in sight. -/
theorem performAll_follows (ids : IdSource) (hnow : h.now = ⟨s, []⟩) (ops : List Operation) :
    ∃ h', Ends (h.performAll ids · ops) h' ∧ h'.now = ⟨s.performAll ids ops, []⟩ ∧
      h.Continues h' := by
  induction ops generalizing h s with
  | nil => exact ⟨h, .of_eq fun _ => rfl, hnow, .refl h⟩
  | cons op ops ih =>
    obtain ⟨h₁, he, hnow₁, hcont⟩ := perform_follows ids hnow op
    obtain ⟨h₂, he₂, hnow₂, hcont₂⟩ := ih hnow₁
    exact ⟨h₂, he.bind he₂, hnow₂, hcont.trans hcont₂⟩

/-- **Resolution ends and keeps its guard in order.** After any operations on any template, whatever
they came to, one more operation ends and comes to what it comes to without the stack in sight. The
stack is empty before and after it; and at every moment since the start it has distinct names, none
of which has a value, at most one more than the template has names of keys. -/
theorem perform_orderly (ids : IdSource) (t : Template) (ops : List Operation) (op : Operation) :
    ∃ h r h', Ends ((start t).performAll ids · ops) h ∧ Ends (h.perform ids · op) (r, h') ∧
      h.now = ⟨(Session.start t).performAll ids ops, []⟩ ∧
      op.perform ids h.now.session = (r, h'.now.session) ∧ h'.now.resolving = [] ∧
      h.moments <:+ h'.moments ∧ ∀ m ∈ h'.moments, m.resolving.Nodup ∧
        (∀ n ∈ m.resolving, n ∉ m.session.values) ∧
        m.resolving.length ≤ m.session.template.keyNames.dedup.length + 1 := by
  have hidle : (start t).now = ⟨Session.start t, []⟩ := rfl
  obtain ⟨h, hall, hnow, hcont⟩ := performAll_follows ids hidle ops
  obtain ⟨h', he, hnow', hcont'⟩ := perform_follows ids hnow op
  have hord : ∀ m ∈ (start t).moments, m.Orderly := by
    simp [moments, start, Moment.Orderly.of_resolving_eq_nil]
  refine ⟨h, _, h', hall, he, hnow, ?_, by rw [hnow'], ?_, fun m hm => ?_⟩
  · rw [hnow, hnow']
  · obtain ⟨later, hl, -⟩ := hcont'
    exact ⟨later, hl.symm⟩
  · have hm := (hcont.trans hcont').orderly hord m hm
    exact ⟨hm.distinct, hm.pending, hm.length_le⟩

end History

end Stencil

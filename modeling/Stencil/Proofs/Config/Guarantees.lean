import Stencil.Proofs.Config.Loading
import Stencil.Proofs.Resolution.Failures
import Stencil.Proofs.Resolution.Overrides

/-!
What a loaded config guarantees.

Every key of a registry that was loaded, be it a key of a template or one that a case sets, has the
attributes that its kind requires. So no key is found to lack an attribute while keys are computed.
A case, however, needs a `value` of every key that it sets, which only keys of the kind `value` are
sure to have.
-/

namespace Stencil

open Markup

/-! ### Attributes of keys -/

lemma Markup.Element.mem_attributeMap_iff {e : Element} {attr : String} :
    attr ∈ e.attributeMap ↔ ∃ value, e.attr? attr = some value := by
  rw [← hasAttr_iff, hasAttr, attribute?, List.find?_isSome, attributeMap,
    Std.ExtTreeMap.mem_ofList]
  simp

namespace Key

/-- The key has all the attributes that its kind requires, if its type is a kind. -/
def Equipped (k : Key) : Prop :=
  ∀ kind, k.kind? = some kind → ∀ attr ∈ kind.requiredAttributes, (k.attr? attr).isSome

lemma attr?_isSome_of_ofElement {e : Element} {k : Key} (h : ofElement e = .ok k) {attr : String}
    (hname : attr ≠ "name") (htype : attr ≠ "type") :
    (k.attr? attr).isSome ↔ ∃ value, e.attr? attr = some value := by
  obtain ⟨-, -, hattrs⟩ := ofElement_eq_ok_iff.mp h
  rw [attr?, ← hattrs, ← Std.ExtTreeMap.mem_iff_isSome_getElem?, Std.ExtTreeMap.mem_erase,
    Std.ExtTreeMap.mem_erase, Element.mem_attributeMap_iff]
  simp [Ne.symm hname, Ne.symm htype]

/-- The checks ask an element for the attributes that its key will be asked for. -/
lemma equipped_of_sound {e : Element} (he : e.Sound) (htag : e.tag = "key") {k : Key}
    (h : ofElement e = .ok k) : k.Equipped := by
  intro kind hkind attr hattr
  have hother : ∀ a ∈ kind.requiredAttributes, a ≠ "name" ∧ a ≠ "type" := by
    cases kind <;> decide
  obtain ⟨hname, htypeName⟩ := hother attr hattr
  obtain ⟨-, htype, -⟩ := ofElement_eq_ok_iff.mp h
  have hrequired : attr ∈ e.requiredByType := by
    simpa [Element.requiredByType, htag, htype, show KeyKind.ofTag? k.typeTag = some kind from hkind]
      using hattr
  rw [attr?_isSome_of_ofElement h hname htypeName]
  exact Element.lacking_eq_nil_iff.mp (he e (.inl rfl)) attr (.inr hrequired)

end Key

namespace Template

/-- The template and its cases define only keys that have what their kinds require. -/
structure Equipped (t : Template) : Prop where
  keys : ∀ k ∈ t.keys, k.Equipped
  overrides : ∀ s ∈ t.switches, ∀ c ∈ s.cases, ∀ k ∈ c.overrides, k.Equipped

lemma equipped_of_sound {e : Element} (he : e.Sound) {t : Template} (h : ofElement e = .ok t) :
    t.Equipped := by
  obtain ⟨-, hkeys, hswitches, -⟩ := ofElement_eq_ok_iff.mp h
  refine ⟨fun k hk => ?_, fun s hs c hc k hk => ?_⟩
  · obtain ⟨f, hf, hread⟩ := exists_mem_of_forall₂ (mapM_eq_ok_iff.mp hkeys) hk
    obtain ⟨hf, htag⟩ := he.of_mem_named (Element.mem_descendantsNamed_of_mem_ownKeys hf)
    exact Key.equipped_of_sound hf htag hread
  · -- down from the template to the switch, to the case, and to the key
    obtain ⟨f, hf, hread⟩ := exists_mem_of_forall₂ (mapM_eq_ok_iff.mp hswitches) hs
    obtain ⟨-, -, hcases, -⟩ := Switch.ofElement_eq_ok_iff.mp hread
    have hf := (he.of_mem_named hf).1
    obtain ⟨f, hf', hread⟩ := exists_mem_of_forall₂ (mapM_eq_ok_iff.mp hcases) hc
    obtain ⟨-, hoverrides⟩ := Case.ofElement_eq_ok_iff.mp hread
    have hf := (hf.of_mem_named hf').1
    obtain ⟨f, hf', hread⟩ := exists_mem_of_forall₂ (mapM_eq_ok_iff.mp hoverrides) hk
    obtain ⟨hf, htag⟩ := hf.of_mem_named hf'
    exact Key.equipped_of_sound hf htag hread

/-- A key that has what its kind requires is not found to lack anything. -/
lemma Equipped.not_fails {t : Template} (h : t.Equipped) (values : Bindings) (name attr : String) :
    ¬ t.Fails values (.missingAttribute name attr) := by
  intro hf
  obtain ⟨k, hk, kind, hkind, hattr, hnone⟩ := hf.lacks
  have hsome := h.keys k hk kind hkind attr hattr
  simp [hnone] at hsome

lemma mem_of_chosen? {t : Template} {choice : String × String} {c : Case}
    (h : t.chosen? choice = some c) : ∃ s ∈ t.switches, c ∈ s.cases := by
  obtain ⟨s, hs, hc⟩ := Option.bind_eq_some_iff.mp h
  exact ⟨s, List.mem_of_find?_eq_some hs, List.mem_of_find?_eq_some hc⟩

/-- A key of the kind `value` that a case sets has a value. -/
lemma Equipped.hasValue {t : Template} (h : t.Equipped) {choice : String × String} {c : Case}
    (hc : t.chosen? choice = some c) {k : Key} (hk : k ∈ c.overrides)
    (hkind : k.kind? = some .value) : (k.attr? "value").isSome := by
  obtain ⟨s, hs, hcs⟩ := mem_of_chosen? hc
  exact h.overrides s hs c hcs k hk .value hkind "value" (by simp [KeyKind.requiredAttributes])

end Template

namespace Session

variable {s s' : Session} {choice : String × String} {c : Case}

/-- A case is applied if each of its keys has a value, and nothing else can keep it from that. -/
lemma exists_applyCase_iff (hc : s.template.chosen? choice = some c) :
    (∃ s', s.applyCase choice.1 choice.2 = (.ok (), s')) ↔
      ∀ k ∈ c.overrides, (k.attr? "value").isSome := by
  simp only [applyCase_ok_iff, Template.CanApply, hc, Option.some.injEq, exists_eq_left']
  exact ⟨fun ⟨_, hall, _⟩ => hall, fun hall => ⟨_, hall, rfl⟩⟩

/-- A case that is not applied has a key without a value, which the error names. -/
lemma exists_valueless_of_applyCase (hc : s.template.chosen? choice = some c) {e : ResolveError}
    (h : s.applyCase choice.1 choice.2 = (.error e, s')) :
    ∃ k ∈ c.overrides, k.attr? "value" = none ∧ e = .missingAttribute k.name "value" := by
  have hchosen : (s.template.switch? choice.1).bind (·.case? choice.2) = some c := hc
  simp only [applyCase, hchosen] at h
  split at h
  · next ho =>
    obtain ⟨rfl, rfl⟩ := error_mk_inj h
    obtain ⟨k, hk, hneed⟩ := exists_error_of_mapM ho
    refine ⟨k, hk, ?_⟩
    cases hv : k.attr? "value" <;>
      simp [Key.need, hv, bind, Except.bind, pure, Except.pure] at hneed
    exact ⟨rfl, hneed.symm⟩
  · simp at h

end Session

/-! ### Loaded templates -/

namespace Config

variable {source : String} {r : Registry}

lemma equipped_of_load (h : load source = .ok r) {t : Template} (ht : t ∈ r.templates) :
    t.Equipped := by
  obtain ⟨d, -, hp, hr⟩ := load_eq_ok_iff.mp h
  obtain ⟨hsound, -⟩ := problems_eq_nil_iff.mp hp
  obtain ⟨e, he, hread⟩ := exists_mem_of_forall₂ (Registry.ofDocument_eq_ok_iff.mp hr).1 ht
  obtain ⟨rfl | hmem, -⟩ := tag_of_mem_templates he
  · exact Template.equipped_of_sound hsound hread
  · exact Template.equipped_of_sound (hsound.of_mem hmem) hread

/-- Two keys that refer to each other, and a case that sets a key of no kind. -/
def mixedSource : String :=
  "<template name='t' desc='d'><key name='a' type='replace' format='$(b)' match='x'" ++
  " replacement='y'/><key name='b' type='escape' format='$(a)' char='.'/>" ++
  "<switch name='s' type='x'><case name='plain'><key name='a' type='value' value='1'/></case>" ++
  "<case name='odd'><key name='a' type='value' value='1'/><key name='b' type='reverse'/></case>" ++
  "</switch></template>"

/-- What is evaluated about the template of this config. -/
def mixedFacts (t : Template) : Bool :=
  !((Session.start t).resolveSymbol (fun n _ => toString n) "a").1.isOk &&
  (t.switch? "s").any fun s =>
    (s.case? "plain").any (·.overrides.all fun k => (k.attr? "value").isSome) &&
    (s.case? "odd").any (·.overrides.any fun k => (k.attr? "value").isNone)

lemma any_load_mixed : (load mixedSource).toOption.any (·.templates.any mixedFacts) := by
  have hchars : mixedSource = String.ofList _ ++ String.ofList _ ++ String.ofList _ ++
      String.ofList _ ++ String.ofList _ := rfl
  simp only [← String.ofList_append] at hchars
  rw [load, hchars, parse_ofList]
  decide +kernel

lemma exists_load_mixed : ∃ r t sw plain odd, load mixedSource = .ok r ∧ t ∈ r.templates ∧
    ((Session.start t).resolveSymbol (fun n _ => toString n) "a").1.isOk = false ∧
    t.switch? "s" = some sw ∧
    (sw.case? "plain" = some plain ∧ ∀ k ∈ plain.overrides, (k.attr? "value").isSome) ∧
    sw.case? "odd" = some odd ∧ ∃ k ∈ odd.overrides, k.attr? "value" = none := by
  obtain ⟨r, hr, hany⟩ := exists_of_toOption_any any_load_mixed
  obtain ⟨t, ht, hfacts⟩ := List.any_eq_true.mp hany
  simp only [mixedFacts, Bool.and_eq_true, Bool.not_eq_true', Option.any_eq_true,
    List.all_eq_true, List.any_eq_true, Option.isNone_iff_eq_none] at hfacts
  obtain ⟨hfails, sw, hsw, ⟨plain, hplain, hall⟩, odd, hodd, hnone⟩ := hfacts
  exact ⟨r, t, sw, plain, odd, hr, ht, hfails, hsw, ⟨hplain, hall⟩, hodd, hnone⟩

/-- **No key of a loaded template is found to lack an attribute** while keys are computed, in any
session on the template, and whatever else the operation fails with. -/
theorem perform_ne_missingAttribute (h : load source = .ok r) (ids : IdSource) (s : Session)
    (hs : s.template ∈ r.templates) (op : Operation) (hop : op.Computes s.template)
    (name attr : String) : (op.perform ids s).1 ≠ .error (.missingAttribute name attr) := by
  intro he
  have hfails := Operation.perform_fails hop (Prod.ext he rfl)
  exact (equipped_of_load h hs).not_fails _ name attr hfails

theorem mixed_lacks_nothing : ∃ r t, load mixedSource = .ok r ∧ t ∈ r.templates ∧
    ((Session.start t).resolveSymbol (fun n _ => toString n) "a").1.isOk = false ∧
    ∀ name attr, ((Session.start t).resolveSymbol (fun n _ => toString n) "a").1 ≠
      .error (.missingAttribute name attr) := by
  obtain ⟨r, t, -, -, -, hr, ht, hfails, -⟩ := exists_load_mixed
  exact ⟨r, t, hr, ht, hfails,
    perform_ne_missingAttribute hr _ (.start t) ht (.ask (.symbol "a")) trivial⟩

/-- **A case of a loaded template is applied** if and only if each key that it sets has a `value`.
Those of the kind `value` do, and if the case is not applied, for lack of the value of another key,
then nothing changes. -/
theorem applyCase_of_load (h : load source = .ok r) (s : Session)
    (hs : s.template ∈ r.templates) {switch case : String} {sw : Switch} {c : Case}
    (hsw : s.template.switch? switch = some sw) (hc : sw.case? case = some c) :
    (∀ k ∈ c.overrides, k.kind? = some .value → (k.attr? "value").isSome) ∧
    ((∃ s', s.applyCase switch case = (.ok (), s')) ↔
      ∀ k ∈ c.overrides, (k.attr? "value").isSome) ∧
    ∀ e s', s.applyCase switch case = (.error e, s') → s' = s ∧ ∃ k ∈ c.overrides,
      k.kind? ≠ some .value ∧ k.attr? "value" = none ∧ e = .missingAttribute k.name "value" := by
  have hchosen : s.template.chosen? (switch, case) = some c :=
    Option.bind_eq_some_iff.mpr ⟨sw, hsw, hc⟩
  have hvalue := fun k hk => (equipped_of_load h hs).hasValue hchosen (k := k) hk
  refine ⟨hvalue, Session.exists_applyCase_iff hchosen, fun e s' he => ?_⟩
  obtain ⟨k, hk, hnone, rfl⟩ := Session.exists_valueless_of_applyCase hchosen he
  refine ⟨Session.applyCase_error he, k, hk, fun hkind => ?_, hnone, rfl⟩
  have hsome := hvalue k hk hkind
  simp [hnone] at hsome

theorem mixed_plain_applies : ∃ r t s', load mixedSource = .ok r ∧ t ∈ r.templates ∧
    (Session.start t).applyCase "s" "plain" = (.ok (), s') := by
  obtain ⟨r, t, sw, plain, -, hr, ht, -, hsw, ⟨hplain, hall⟩, -⟩ := exists_load_mixed
  obtain ⟨-, happlies, -⟩ := applyCase_of_load hr (.start t) ht hsw hplain
  obtain ⟨s', hs'⟩ := happlies.mpr hall
  exact ⟨r, t, s', hr, ht, hs'⟩

/-- A key of no kind may be set without a `value`, and then its case cannot be applied. -/
theorem mixed_odd_not_applied : ∃ r t sw c, load mixedSource = .ok r ∧ t ∈ r.templates ∧
    t.switch? "s" = some sw ∧ sw.case? "odd" = some c ∧
    (∃ k ∈ c.overrides, k.attr? "value" = none) ∧
    ¬ ∃ s', (Session.start t).applyCase "s" "odd" = (.ok (), s') := by
  obtain ⟨r, t, sw, -, odd, hr, ht, -, hsw, -, hodd, k, hk, hnone⟩ := exists_load_mixed
  have hchosen : t.chosen? ("s", "odd") = some odd :=
    Option.bind_eq_some_iff.mpr ⟨sw, hsw, hodd⟩
  refine ⟨r, t, sw, odd, hr, ht, hsw, hodd, ⟨k, hk, hnone⟩, fun happlies => ?_⟩
  have hsome := (Session.exists_applyCase_iff (s := .start t) hchosen).mp happlies k hk
  simp [hnone] at hsome

end Config

end Stencil

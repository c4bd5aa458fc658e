import Stencil.Proofs.Answers.Completion
import Stencil.Proofs.Config.Guarantees
import Stencil.Proofs.Resolution.Passes
import Stencil.Scaffold

/-!
Whether the answers from the dialogue can be used.

A resolution can fail because of the answers: no template is chosen, or one that is not registered,
or an input has no value, or a chosen case does not exist. Answers that the dialogue has collected
from nothing leave only the last way. The dialogue asks for a case of an input switch, but the case
is looked up in the first switch of that name, and this may be one of another type that lacks it.
-/

namespace Stencil

/-- The error is about the answers, not about the template. -/
inductive ScaffoldError.BlamesAnswers : ScaffoldError → Prop
  | notSelected : BlamesAnswers (.template .notSelected)
  | notFound (name : String) : BlamesAnswers (.template (.notFound name))
  | missingInput (key : String) : BlamesAnswers (.resolve (.missingInput key))
  | undefinedCase (switch case : String) : BlamesAnswers (.resolve (.undefinedCase switch case))

/-! ### Computing keys -/

namespace Template

variable {t : Template} {values : Bindings}

lemma Fails.not_undefinedCase {switch case : String} :
    ¬ t.Fails values (.undefinedCase switch case) := by
  intro h
  cases h with
  | noRule _ _ _ hrule =>
    rcases Rule.error_of_ofKey hrule with ⟨-, he⟩ | ⟨attr, -, -, he⟩
    · simp at he
    · simp at he

/-- It is the value of an input key that is missing. -/
lemma Fails.input {name : String} (h : t.Fails values (.missingInput name)) :
    ∃ k ∈ t.keysOfKind .input, k.name = name ∧ name ∉ values := by
  cases h with
  | @noRule k kind _ hk hkind hnew hrule =>
    rcases Rule.error_of_ofKey hrule with ⟨rfl, he⟩ | ⟨attr, -, -, he⟩
    · obtain rfl := ResolveError.missingInput.inj he
      exact ⟨k, mem_keysOfKind_iff.mpr ⟨hk, hkind⟩, rfl, hnew⟩
    · simp at he

end Template

/-! ### Applying cases -/

namespace Session

variable {s s' : Session} {e : ResolveError}

lemma applyCase_fails {choice : String × String}
    (h : s.applyCase choice.1 choice.2 = (.error e, s')) :
    (s.template.chosen? choice = none ∧ e = .undefinedCase choice.1 choice.2) ∨
      ∃ key, e = .missingAttribute key "value" := by
  cases hc : s.template.chosen? choice with
  | none =>
    have hnone : (s.template.switch? choice.1).bind (·.case? choice.2) = none := hc
    simp only [applyCase, hnone] at h
    exact .inl ⟨rfl, (error_mk_inj h).1.symm⟩
  | some c =>
    obtain ⟨k, -, -, he⟩ := exists_valueless_of_applyCase hc h
    exact .inr ⟨k.name, he⟩

/-- Cases are not applied because one of them does not exist, or sets a key that has no value. -/
lemma applyCases_fails {choices : List (String × String)}
    (h : s.applyCases choices = (.error e, s')) :
    (∃ choice ∈ choices, s.template.chosen? choice = none ∧
        e = .undefinedCase choice.1 choice.2) ∨
      ∃ key, e = .missingAttribute key "value" := by
  induction choices generalizing s with
  | nil => simp [applyCases] at h
  | cons choice choices ih =>
    unfold applyCases at h
    split at h
    · next hchoice =>
      obtain ⟨rfl, rfl⟩ := error_mk_inj h
      exact (applyCase_fails hchoice).imp_left fun hc => ⟨choice, List.mem_cons_self, hc⟩
    · next s₁ hchoice =>
      have ht : s₁.template = s.template := by
        rw [((applyCase_ok_iff choice).mp hchoice).2, template_overrideAll]
      rcases ih h with ⟨c, hc, hnone, he⟩ | hkey
      · exact .inl ⟨c, List.mem_cons_of_mem _ hc, ht ▸ hnone, he⟩
      · exact .inr hkey

end Session

namespace Template

variable {t : Template} {ids : IdSource} {a : Answers} {e : ResolveError}

/-- A pass over all keys of the opened session keeps what the session has. -/
lemma proceeds_of_resolveAll {choices : List (String × String)} {inputs : Bindings}
    {r : Except ResolveError Unit} {s : Session}
    (h : (t.opened inputs choices).resolveAll ids inputs = (r, s)) :
    (t.opened inputs choices).Proceeds ids (t.keysOfKinds KeyKind.computed) s := by
  have hp := Session.resolveAll_proceeds h
  rwa [absorbInputs_of_advances (.refl ids _), template_opened] at hp

/-- A resolution fails at a case, or else at a key or a name, when all inputs are in the table. -/
lemma resolve_fails (h : t.resolve ids a = .error e) :
    (∃ choice ∈ a.cases.toList, t.chosen? choice = none ∧
        e = .undefinedCase choice.1 choice.2) ∨
      (∃ key, e = .missingAttribute key "value") ∨
      ∃ values : Bindings, (∀ n ∈ a.inputs, n ∈ values) ∧ t.Fails values e := by
  unfold resolve at h
  split at h
  · next hcases =>
    obtain rfl := Except.error.inj h
    exact (Session.applyCases_fails hcases).imp_right .inl
  next s hcases =>
  obtain ⟨-, rfl⟩ := applyCases_start_iff.mp hcases
  have hinputs : ∀ n ∈ a.inputs, n ∈ (t.opened a.inputs a.cases.toList).values :=
    fun n hn => mem_opened_iff.mpr (.inl hn)
  refine .inr (.inr ?_)
  split at h
  · next s₁ hall =>
    obtain rfl := Except.error.inj h
    have hext := (proceeds_of_resolveAll hall).extends_values
    have hfails := Session.resolveAll_fails hall
    rw [template_opened] at hfails
    exact ⟨s₁.values, fun n hn => hext.mem (hinputs n hn), hfails⟩
  next s₁ hall =>
  have hp := proceeds_of_resolveAll hall
  have ht : s₁.template = t := hp.template.trans template_opened
  split at h
  · next s₂ hfolders =>
    obtain rfl := Except.error.inj h
    have hext := (Session.resolveFolderList_advances hfolders).extends_values
    have hfails := Session.resolveFolderList_fails hfolders
    rw [ht] at hfails
    exact ⟨s₂.values, fun n hn => hext.mem (hp.extends_values.mem (hinputs n hn)), hfails⟩
  · simp at h

/-- A resolution that succeeds has applied all chosen cases. -/
lemma canApply_of_resolve {r : ResolvedTemplate} (h : t.resolve ids a = .ok r) :
    ∀ choice ∈ a.cases.toList, t.CanApply choice := by
  unfold resolve at h
  split at h
  · simp at h
  · next hcases => exact (applyCases_start_iff.mp hcases).1

/-! ### Switches of one name -/

/-- The user is asked for a case of one switch, and the case is looked up in another one, which
does not have it. -/
def Hides (t : Template) (name case : String) : Prop :=
  ∃ asked found, (t.switchesOfType "input").find? (·.name = name) = some asked ∧
    case ∈ asked.caseNames ∧ t.switch? name = some found ∧ found.typeTag ≠ "input" ∧
    case ∉ found.caseNames

lemma case?_eq_none_iff {s : Switch} {name : String} :
    s.case? name = none ↔ name ∉ s.caseNames := by
  simp [Switch.case?, Switch.caseNames]

/-- If the first switch of a name is of the type, it is also the first one among those of it. -/
lemma find?_switchesOfType {name : String} {s : Switch} (h : t.switch? name = some s) :
    (t.switchesOfType s.typeTag).find? (·.name = name) = some s := by
  obtain ⟨hname, before, after, hsplit, hbefore⟩ := List.find?_eq_some_iff_append.mp h
  rw [switchesOfType, List.find?_filter, hsplit, List.find?_append,
    List.find?_eq_none.mpr fun s' hs' => by simpa using fun _ => by simpa using hbefore s' hs']
  simp [hname]

/-- A case that the user has chosen for an input switch is found, unless it is hidden. -/
lemma hides_of_chosen? {name case : String} {asked : Switch}
    (hasked : (t.switchesOfType "input").find? (·.name = name) = some asked)
    (hcase : case ∈ asked.caseNames) (h : t.chosen? (name, case) = none) : t.Hides name case := by
  have hmem : asked ∈ t.switches := List.mem_of_mem_filter (List.mem_of_find?_eq_some hasked)
  have hsome : (t.switch? name).isSome :=
    List.find?_isSome.mpr ⟨asked, hmem, by simpa using List.find?_some hasked⟩
  obtain ⟨found, hfound⟩ := Option.isSome_iff_exists.mp hsome
  have hnone : case ∉ found.caseNames := by
    rw [chosen?, hfound, Option.bind_some] at h
    exact case?_eq_none_iff.mp h
  refine ⟨asked, found, hasked, hcase, hfound, fun hinput => hnone ?_, hnone⟩
  obtain rfl : asked = found := by
    have hfirst := find?_switchesOfType hfound
    rw [hinput, hasked] at hfirst
    exact Option.some.inj hfirst
  exact hcase

/-- A hidden case is not found. -/
lemma Hides.chosen?_eq_none {name case : String} (h : t.Hides name case) :
    t.chosen? (name, case) = none := by
  obtain ⟨-, found, -, -, hfound, -, hcase⟩ := h
  rw [chosen?, hfound, Option.bind_some]
  exact case?_eq_none_iff.mpr hcase

/-! ### Complete answers -/

variable {b : Answers}

/-- No input is missing where each input key has an answer. -/
lemma Completes.ne_missingInput (hc : t.Completes a b) (h : t.resolve ids b = .error e)
    (key : String) : e ≠ .missingInput key := by
  rintro rfl
  obtain ⟨_, -, -, he⟩ | ⟨_, he⟩ | ⟨values, hinputs, hfails⟩ := resolve_fails h
  · simp at he
  · simp at he
  · obtain ⟨k, hk, rfl, hmissing⟩ := hfails.input
    exact hmissing (hinputs _ (hc.inputs k hk))

/-- A chosen case that does not exist was there before, or it is hidden. -/
lemma Completes.hides (hc : t.Completes a b) {name case : String}
    (h : t.resolve ids b = .error (.undefinedCase name case)) :
    b.cases[name]? = some case ∧ (name ∈ a.cases ∨ t.Hides name case) := by
  obtain ⟨⟨_, _⟩, hmem, hnone, he⟩ | ⟨_, he⟩ | ⟨_, -, hfails⟩ := resolve_fails h
  · obtain ⟨rfl, rfl⟩ := ResolveError.undefinedCase.inj he
    have hchoice := Std.ExtTreeMap.mem_toList_iff_getElem?_eq_some.mp hmem
    refine ⟨hchoice, or_iff_not_imp_left.mpr fun hnew => ?_⟩
    obtain ⟨asked, hasked, hcase⟩ := hc.addedCases name case hchoice hnew
    exact hides_of_chosen? hasked hcase hnone
  · simp at he
  · exact absurd hfails Fails.not_undefinedCase

/-- A chosen case that is hidden keeps the template from being resolved. -/
lemma Hides.exists_error {name case : String} (h : t.Hides name case)
    (hchoice : a.cases[name]? = some case) (ids : IdSource) :
    ∃ e, t.resolve ids a = .error e := by
  cases hr : t.resolve ids a with
  | error e => exact ⟨e, rfl⟩
  | ok resolved =>
    have hmem := Std.ExtTreeMap.mem_toList_iff_getElem?_eq_some.mpr hchoice
    obtain ⟨c, hc, -⟩ := canApply_of_resolve hr (name, case) hmem
    simp [h.chosen?_eq_none] at hc

end Template

namespace Dialogue

variable {r : Registry} {b : Answers} {lines : List Line}

/-- **Answers from the dialogue can be used, unless a case is hidden.** A resolution with answers
that the dialogue has collected from nothing fails for a reason other than the answers, or because
of a chosen case that another switch of the same name hides; and it does fail where there is one. -/
theorem resolve_complete (h : (complete r .empty lines).result = .ok b) (ids : IdSource) :
    ∃ t ∈ r.templates, b.template? = some t.name ∧
      (∀ e, r.resolve ids b = .error e → e.BlamesAnswers → ∃ name case,
        e = .resolve (.undefinedCase name case) ∧ b.cases[name]? = some case ∧
          t.Hides name case) ∧
      ∀ name case, b.cases[name]? = some case → t.Hides name case →
        ∃ e, r.resolve ids b = .error e := by
  obtain ⟨-, ⟨name, hname, hchosen, hcompletes, -⟩, -⟩ := complete_ok h
  obtain ⟨t, ht⟩ := Option.isSome_iff_exists.mp (Registry.get?_isSome_iff.mpr (hchosen rfl))
  have hc := hcompletes t ht
  have hresolve : r.resolve ids b = (t.resolve ids b).mapError .resolve := by
    simp only [Registry.resolve, hname, Registry.select, ht]
  rw [hresolve]
  refine ⟨t, Registry.mem_templates_of_get? ht, by rw [hname, Registry.name_of_get? ht],
    fun e he hblames => ?_, fun n c hn hhides => ?_⟩
  · obtain ⟨e, hfails, rfl⟩ := exists_of_mapError he
    cases hblames with
    | missingInput key => exact absurd rfl (hc.ne_missingInput hfails key)
    | undefinedCase n c =>
      obtain ⟨hn, hhides⟩ := hc.hides hfails
      exact ⟨n, c, rfl, hn, hhides.resolve_left (by simp [Answers.empty])⟩
  · obtain ⟨e, he⟩ := hhides.exists_error hn ids
    exact ⟨.resolve e, by rw [he]; rfl⟩

/-- A config whose only template has two switches of one name, the second one for the user. -/
def paperSource : String :=
  "<template name='report' desc='A report'>" ++
  "<switch name='paper' type='auto'><case name='a3'/></switch>" ++
  "<switch name='paper' type='input' prompt='Paper'><case name='a4'/></switch></template>"

def paperLines : List Line := [some "report", some "a4"]

/-- Whether the case from the dialogue is not found. -/
def hidesPaper (r : Registry) (b : Answers) : Bool :=
  match r.resolve (fun _ name => name) b with
  | .error (.resolve e) => e = .undefinedCase "paper" "a4"
  | _ => false

lemma any_load_paper : (Config.load paperSource).toOption.any fun r =>
    (complete r .empty paperLines).result.toOption.any (hidesPaper r) := by
  have hchars : paperSource = String.ofList _ ++ String.ofList _ ++ String.ofList _ := rfl
  rw [Config.load, hchars, ← String.ofList_append, ← String.ofList_append, Config.parse_ofList]
  decide +kernel

lemma exists_load_paper : ∃ r b, Config.load paperSource = .ok r ∧
    (complete r .empty paperLines).result = .ok b ∧
    r.resolve (fun _ name => name) b = .error (.resolve (.undefinedCase "paper" "a4")) := by
  obtain ⟨r, hr, hany⟩ := exists_of_toOption_any any_load_paper
  obtain ⟨b, hb, hhides⟩ := exists_of_toOption_any hany
  refine ⟨r, b, hr, hb, ?_⟩
  unfold hidesPaper at hhides
  split at hhides
  · next he => rw [he, of_decide_eq_true hhides]
  · simp at hhides

theorem complete_paper_hides : ∃ r b t, Config.load paperSource = .ok r ∧
    (complete r .empty paperLines).result = .ok b ∧ t ∈ r.templates ∧ t.Hides "paper" "a4" := by
  obtain ⟨r, b, hr, hb, he⟩ := exists_load_paper
  obtain ⟨t, ht, -, hblames, -⟩ := resolve_complete hb fun _ name => name
  obtain ⟨name, case, heq, -, hhides⟩ := hblames _ he (.undefinedCase _ _)
  obtain ⟨rfl, rfl⟩ := ResolveError.undefinedCase.inj (ScaffoldError.resolve.inj heq)
  exact ⟨r, b, t, hr, hb, ht, hhides⟩

/-- Not all answers that the dialogue collects for a loaded config can be used. -/
theorem not_all_complete_usable : ¬ ∀ (source : String) (r : Registry) (lines : List Line)
    (b : Answers) (ids : IdSource), Config.load source = .ok r →
      (complete r .empty lines).result = .ok b →
        ∀ e, r.resolve ids b = .error e → ¬ e.BlamesAnswers := by
  intro h
  obtain ⟨r, b, hr, hb, he⟩ := exists_load_paper
  exact h paperSource r paperLines b _ hr hb _ he (.undefinedCase _ _)

end Dialogue

end Stencil

import Stencil.Proofs.Resolution.Session

/-!
What inputs and cases enter.

Inputs and cases enter values one after the other, so that of several values for one name the last
one counts. A session that has absorbed its inputs and applied its cases has the value of the
last setting of a name, or else its input, and absorbing the same inputs again changes nothing.
-/

namespace Stencil

/-! ### Cases -/

/-- The names and values that a case sets. -/
def Case.settings (c : Case) : List (String × String) :=
  c.overrides.filterMap fun k => (k.attr? "value").map (k.name, ·)

namespace Template

/-- The case that a choice for a switch leads to. -/
def chosen? (t : Template) (choice : String × String) : Option Case :=
  (t.switch? choice.1).bind (·.case? choice.2)

/-- The choice leads to a case that can be applied. -/
def CanApply (t : Template) (choice : String × String) : Prop :=
  ∃ c, t.chosen? choice = some c ∧ ∀ k ∈ c.overrides, (k.attr? "value").isSome

/-- Everything that the chosen cases set, in the order in which they are applied. -/
def settings (t : Template) (choices : List (String × String)) : List (String × String) :=
  choices.flatMap fun choice => ((t.chosen? choice).map Case.settings).getD []

end Template

namespace Session

variable {s s' : Session}

lemma overridesOf_eq_ok_iff {c : Case} {entries : List (String × String)} :
    overridesOf c = .ok entries ↔
      (∀ k ∈ c.overrides, (k.attr? "value").isSome) ∧ entries = c.settings := by
  have hentry : ∀ (k : Key) (e : String × String),
      (do return (k.name, ← k.need "value") : Except ResolveError (String × String)) = .ok e ↔
        (k.attr? "value").map (k.name, ·) = some e := by
    intro k e
    cases hv : k.attr? "value" <;> simp [Key.need, hv, bind, Except.bind, pure, Except.pure]
  unfold overridesOf Case.settings
  simp only [mapM_eq_ok_iff, hentry, forall₂_eq_some_iff, Option.isSome_map]

lemma getElem?_override (name value n : String) :
    (s.override name value).values[n]? = if name = n then some value else s.values[n]? :=
  Progress.getElem?_enter name value n

/-- Set the names of all entries for good. -/
def overrideAll (s : Session) (entries : List (String × String)) : Session :=
  entries.foldl (fun s entry => s.override entry.1 entry.2) s

lemma overrideAll_cons (e : String × String) (entries : List (String × String)) :
    s.overrideAll (e :: entries) = (s.override e.1 e.2).overrideAll entries := rfl

@[simp] lemma template_overrideAll (entries : List (String × String)) :
    (s.overrideAll entries).template = s.template := by
  induction entries generalizing s with
  | nil => rfl
  | cons e entries ih => exact ih

lemma mem_overridden_overrideAll {entries : List (String × String)} {n : String} :
    n ∈ (s.overrideAll entries).overridden ↔ n ∈ entries.map Prod.fst ∨ n ∈ s.overridden := by
  induction entries generalizing s with
  | nil => simp [overrideAll]
  | cons e entries ih =>
    rw [overrideAll_cons, ih]
    simp only [override, List.mem_insert_iff, List.map_cons, List.mem_cons]
    tauto

lemma getElem?_overrideAll (entries : List (String × String)) (n : String) :
    (s.overrideAll entries).values[n]? = (lastValue? entries n).or s.values[n]? := by
  induction entries generalizing s with
  | nil => rfl
  | cons e entries ih =>
    rw [overrideAll_cons, ih, lastValue?_cons, Option.or_assoc, getElem?_override]
    congr 1
    by_cases h : e.1 = n <;> simp [h]

lemma applyCase_ok_iff (choice : String × String) :
    s.applyCase choice.1 choice.2 = (.ok (), s') ↔
      s.template.CanApply choice ∧ s' = s.overrideAll (s.template.settings [choice]) := by
  have hchosen : (s.template.switch? choice.1).bind (·.case? choice.2) =
      s.template.chosen? choice := rfl
  unfold applyCase Template.CanApply Template.settings
  rw [hchosen]
  cases hc : s.template.chosen? choice with
  | none => simp
  | some c =>
    simp only [List.flatMap_singleton, hc, Option.map_some, Option.getD_some, Option.some.injEq,
      exists_eq_left']
    cases ho : overridesOf c with
    | error e =>
      simp only [Prod.mk.injEq, reduceCtorEq, false_and, false_iff, not_and]
      intro hall
      rw [overridesOf_eq_ok_iff.mpr ⟨hall, rfl⟩] at ho
      simp at ho
    | ok entries =>
      obtain ⟨hall, rfl⟩ := overridesOf_eq_ok_iff.mp ho
      simp only [Prod.mk.injEq, true_and, and_iff_right hall]
      exact eq_comm

/-- **Cases** are applied if every choice leads to a case that can be applied, and then all that
these cases set is entered in order. -/
lemma applyCases_ok_iff {choices : List (String × String)} :
    s.applyCases choices = (.ok (), s') ↔ (∀ c ∈ choices, s.template.CanApply c) ∧
      s' = s.overrideAll (s.template.settings choices) := by
  induction choices generalizing s with
  | nil => simp [applyCases, Template.settings, overrideAll, eq_comm]
  | cons c choices ih =>
    have hsplit : s.overrideAll (s.template.settings (c :: choices)) =
        (s.overrideAll (s.template.settings [c])).overrideAll (s.template.settings choices) := by
      simp [Template.settings, overrideAll]
    rw [hsplit, List.forall_mem_cons]
    obtain ⟨switch, case⟩ := c
    rcases h : s.applyCase switch case with ⟨r, s₁⟩
    cases r with
    | error e =>
      simp only [applyCases, h, Prod.mk.injEq, reduceCtorEq, false_and, false_iff, not_and]
      intro hcan
      have hok := (applyCase_ok_iff (switch, case)).mpr ⟨hcan.1, rfl⟩
      simp [h] at hok
    | ok u =>
      obtain ⟨hcan, rfl⟩ := (applyCase_ok_iff (switch, case)).mp h
      simp only [applyCases, h, ih, template_overrideAll, and_iff_right hcan]

/-! ### Inputs -/

lemma getElem?_absorbInputs (inputs : Bindings) (n : String) :
    (s.absorbInputs inputs).values[n]? =
      if n ∈ s.overridden then s.values[n]? else inputs[n]?.or s.values[n]? :=
  Progress.getElem?_enterAll inputs n

/-- Inputs that the session already has change nothing. -/
lemma absorbInputs_eq_self {inputs : Bindings}
    (h : ∀ n v, inputs[n]? = some v → n ∉ s.overridden → s.values[n]? = some v) :
    s.absorbInputs inputs = s := by
  rw [absorbInputs, Progress.enterAll_eq_self h]

end Session

/-! ### Opened sessions -/

namespace Template

/-- The session that has absorbed the inputs and applied the chosen cases. -/
def opened (t : Template) (inputs : Bindings) (choices : List (String × String)) : Session :=
  ((Session.start t).absorbInputs inputs).overrideAll (t.settings choices)

/-- The value that cases and inputs give to a name. Cases go first. -/
def given? (t : Template) (inputs : Bindings) (choices : List (String × String))
    (name : String) : Option String :=
  (lastValue? (t.settings choices) name).or inputs[name]?

variable {t : Template} {inputs : Bindings} {choices : List (String × String)}

lemma applyCases_start_iff {s : Session} :
    ((Session.start t).absorbInputs inputs).applyCases choices = (.ok (), s) ↔
      (∀ c ∈ choices, t.CanApply c) ∧ s = t.opened inputs choices := by
  rw [Session.applyCases_ok_iff]
  rfl

@[simp] lemma template_opened : (t.opened inputs choices).template = t := by
  rw [opened, Session.template_overrideAll]
  rfl

lemma mem_overridden_opened {n : String} :
    n ∈ (t.opened inputs choices).overridden ↔ n ∈ (t.settings choices).map Prod.fst := by
  rw [opened, Session.mem_overridden_overrideAll]
  simp [Session.absorbInputs, Session.start]

lemma getElem?_opened (n : String) :
    (t.opened inputs choices).values[n]? = t.given? inputs choices n := by
  have hempty : (Session.start t).values[n]? = none := Std.ExtTreeMap.getElem?_empty
  rw [opened, Session.getElem?_overrideAll, Session.getElem?_absorbInputs, hempty, given?]
  simp [Session.start]

lemma mem_opened_iff {n : String} :
    n ∈ (t.opened inputs choices).values ↔
      n ∈ inputs ∨ n ∈ (t.settings choices).map Prod.fst := by
  rw [Std.ExtTreeMap.mem_iff_isSome_getElem?, getElem?_opened, given?, Option.isSome_or,
    Bool.or_eq_true, lastValue?_isSome_iff, Std.ExtTreeMap.mem_iff_isSome_getElem?]
  exact or_comm

/-- An opened session has its inputs for good, however far it advances. -/
lemma absorbInputs_of_advances {ids : IdSource} {s : Session}
    (h : (t.opened inputs choices).Advances ids s) : s.absorbInputs inputs = s := by
  refine Session.absorbInputs_eq_self fun n v hv hn => h.extends_values n v ?_
  rw [h.overridden, mem_overridden_opened, ← lastValue?_isSome_iff,
    Option.not_isSome_iff_eq_none] at hn
  rw [getElem?_opened, given?, hv, hn, Option.none_or]

end Template

end Stencil

import Stencil.Proofs.Resolution.Passes

/-!
The table of a resolved template solves the equations of its keys.

No value is computed from an entry that changes afterwards. So all values of the final table fit
together: every name that neither a case nor the user gives has the value that its key asks for,
with the placeholders of its format filled in from the final table itself.
-/

namespace Stencil

namespace Key

/-- The text is the format of the key filled in from the table, which has all that it refers to. -/
def FillsIn (k : Key) (values : Bindings) (text : String) : Prop :=
  ∃ format, k.attr? "format" = some format ∧
    (∀ n ∈ Placeholder.references format, n ∈ values) ∧
    text = Placeholder.substitute (values[·]?) format

/-- What the value of a key of some kind has to be, given a table of values. -/
def HasValue (ids : IdSource) (values : Bindings) (k : Key) (value : String) : KeyKind → Prop
  | .value => k.attr? "value" = some value
  | .uuid => ∃ i, value = ids i k.name
  | .lowercase => ∃ text, k.FillsIn values text ∧ value = Text.lower text
  | .uppercase => ∃ text, k.FillsIn values text ∧ value = Text.upper text
  | .replace => ∃ text pattern replacement, k.FillsIn values text ∧
      k.attr? "match" = some pattern ∧ k.attr? "replacement" = some replacement ∧
      value = Text.replace pattern replacement text
  | .escape => ∃ text mark, k.FillsIn values text ∧ k.attr? "char" = some mark ∧
      value = Text.replace mark ("\\" ++ mark) text
  | .concatenate => k.FillsIn values value
  | .input => False

end Key

/-- Every entry of a resolved template is what the template and the answers say. -/
structure Template.SolvedBy (t : Template) (ids : IdSource) (a : Answers)
    (r : ResolvedTemplate) : Prop where
  name : r.template = t.name
  names : ∀ n, n ∈ r.values ↔
    n ∈ a.inputs ∨ n ∈ (t.settings a.cases.toList).map Prod.fst ∨ n ∈ t.keyNames
  /-- Of all that the chosen cases set a name to, the last counts. -/
  set : ∀ n v, lastValue? (t.settings a.cases.toList) n = some v → r.values[n]? = some v
  input : ∀ n v, n ∉ (t.settings a.cases.toList).map Prod.fst → a.inputs[n]? = some v →
    r.values[n]? = some v
  computed : ∀ k ∈ t.keys, k.name ∉ (t.settings a.cases.toList).map Prod.fst →
    k.name ∉ a.inputs → ∃ kind value, k.kind? = some kind ∧ r.values[k.name]? = some value ∧
      k.HasValue ids r.values value kind
  folders : r.folders = t.folders.map fun f => ⟨f.source, f.targetIn r.values⟩
  renames : ∀ f ∈ t.folders, ∀ n ∈ Placeholder.references f.rename, n ∈ r.values

variable {ids : IdSource} {t : Template}

/-- The rule of a key gives the value that the key asks for. -/
lemma Rule.Gives.hasValue {values : Bindings} {k : Key} {kind : KeyKind} {rule : Rule}
    {value : String} (hrule : Rule.ofKey kind k = .ok rule)
    (h : rule.Gives ids values k.name value) : k.HasValue ids values value kind := by
  obtain ⟨hready, i, rfl⟩ := h
  cases kind <;>
    simp only [Rule.ofKey, bind_eq_ok_iff, Key.need_eq_ok_iff, pure, Except.pure,
      Except.ok.injEq] at hrule
  case value =>
    obtain ⟨v, hv, rfl⟩ := hrule
    exact hv
  case uuid =>
    subst hrule
    exact ⟨i, rfl⟩
  case lowercase | uppercase =>
    obtain ⟨format, hf, rfl⟩ := hrule
    exact ⟨_, ⟨format, hf, hready, rfl⟩, rfl⟩
  case concatenate =>
    obtain ⟨format, hf, rfl⟩ := hrule
    exact ⟨format, hf, hready, rfl⟩
  case replace =>
    obtain ⟨format, hf, pattern, hp, replacement, hr, rfl⟩ := hrule
    exact ⟨_, pattern, replacement, ⟨format, hf, hready, rfl⟩, hp, hr, rfl⟩
  case escape =>
    obtain ⟨format, hf, mark, hm, rfl⟩ := hrule
    exact ⟨_, mark, ⟨format, hf, hready, rfl⟩, hm, rfl⟩
  case input => simp at hrule

/-- **A resolved template solves the equations of its keys.** -/
theorem Template.resolve_solves (hn : t.keyNames.Nodup) {a : Answers} {r : ResolvedTemplate}
    (h : t.resolve ids a = .ok r) : t.SolvedBy ids a r := by
  obtain ⟨-, s, hall, hrenames, rfl⟩ := (resolve_eq_ok_iff hn).mp h
  have hadv := advances_of_resolveAll hn hall
  have hc := complete_of_resolveAll hn hall
  have hgiven : ∀ n v, t.given? a.inputs a.cases.toList n = some v → s.values[n]? = some v :=
    fun n v hv => hadv.extends_values n v (by rwa [getElem?_opened])
  refine ⟨rfl, fun n => ?_, fun n v hv => ?_, fun n v hset hv => ?_, fun k hk hset hinput => ?_,
    rfl, hrenames⟩
  · rw [mem_values_iff hadv hc, mem_opened_iff, or_assoc]
  · exact hgiven n v (by rw [given?, hv, Option.some_or])
  · rw [← lastValue?_isSome_iff, Option.not_isSome_iff_eq_none] at hset
    exact hgiven n v (by rw [given?, hset, Option.none_or, hv])
  · have hnew : k.name ∉ (t.opened a.inputs a.cases.toList).values := by
      rw [mem_opened_iff]
      tauto
    obtain ⟨v, hv⟩ := mem_iff_exists.mp (hc k hk)
    obtain ⟨rule, hr, hg⟩ := gives_of_advances hadv hnew hv
    obtain ⟨k', kind, hk', hkind, hof⟩ := exists_key_of_rule? hr
    obtain rfl := Option.some.inj ((key?_name hn hk).symm.trans hk')
    exact ⟨kind, v, hkind, hv, hg.hasValue hof⟩

/-! ### A template for a library -/

/-- The keys refer to keys further down, and a case sets one of them. -/
def Template.library : Template where
  name := "library"
  description := "A library with its documentation"
  keys := [
    ⟨"banner", "concatenate",
      Std.ExtTreeMap.ofList [("format", "$(slug) by $(author), $(region)")]⟩,
    ⟨"slug", "replace", Std.ExtTreeMap.ofList
      [("format", "$(title) $(author)"), ("match", " "), ("replacement", "-")]⟩,
    ⟨"title", "uppercase", Std.ExtTreeMap.ofList [("format", "$(project)")]⟩,
    ⟨"author", "value", Std.ExtTreeMap.ofList [("value", "Jane")]⟩,
    ⟨"region", "value", Std.ExtTreeMap.ofList [("value", "world")]⟩,
    ⟨"guid", "uuid", ∅⟩,
    ⟨"project", "input", ∅⟩]
  switches := [⟨"site", "option", none,
    [⟨"eu", [⟨"region", "value", Std.ExtTreeMap.ofList [("value", "Europe")]⟩]⟩]⟩]
  folders := [⟨"src", "$(project)_src"⟩, ⟨"doc", "slug"⟩]

def Answers.library : Answers where
  template? := some "library"
  inputs := Std.ExtTreeMap.ofList [("project", "demo")]
  cases := Std.ExtTreeMap.ofList [("site", "eu")]

lemma exists_resolve_library :
    ∃ r, Template.library.resolve (fun _ name => name) .library = .ok r :=
  isOk_iff.mp (by decide +kernel)

theorem library_solved : ∃ r, Template.library.resolve (fun _ name => name) .library = .ok r ∧
    Template.library.SolvedBy (fun _ name => name) .library r := by
  obtain ⟨r, h⟩ := exists_resolve_library
  exact ⟨r, h, Template.resolve_solves (by decide) h⟩

end Stencil

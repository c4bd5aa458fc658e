import Stencil.Proofs.Placeholder.Scanning
import Stencil.Proofs.Resolution.Once

/-!
Interpolation.

A format that can be interpolated has no placeholders left: all names that it refers to have values
then, and these stand in their places. Asking for one name neither helps nor hinders another one, so
that it can be told beforehand, name by name, whether a format can be interpolated.
-/

namespace Stencil

namespace Placeholder

/-- Values in the places of all placeholders are woven into the cut. -/
lemma exists_weave {values : Bindings} {format : String} (h : ∀ n ∈ references format, n ∈ values)
    {cut : Cut} (hcut : cut.Scans format) :
    ∃ texts, List.Forall₂ (fun n text => values[n]? = some text) cut.names texts ∧
      substitute (values[·]?) format = cut.weave texts := by
  obtain rfl := Cut.scans_iff.mp hcut
  have hvalue : ∀ n ∈ (Cut.of format).names, values[n]? = some ((values[n]?).getD (token n)) := by
    intro n hn
    rw [Cut.names_of, ← List.mem_eraseDups] at hn
    obtain ⟨v, hv⟩ := mem_iff_exists.mp (h n hn)
    rw [hv, Option.getD_some]
  refine ⟨_, ?_, substitute_eq_weave (values[·]?) format⟩
  rw [List.forall₂_map_right_iff, List.forall₂_same]
  exact hvalue

end Placeholder

namespace Session

variable {ids : IdSource} {s s' : Session} {format text : String}

/-- Whatever is asked keeps all values. -/
lemma performAll_extends (ids : IdSource) (s : Session) {ops : List Operation}
    (hops : ∀ op ∈ ops, op.OnlyAsks) : (s.performAll ids ops).values.Extends s.values := by
  induction ops generalizing s with
  | nil => exact fun _ _ hv => hv
  | cons op ops ih =>
    obtain ⟨hop, hops⟩ := List.forall_mem_cons.mp hops
    rw [performAll_cons]
    have hfirst := (op.perform_proceeds ids s hop).extends_values
    exact fun n v hv => ih (op.perform ids s).2 hops n v (hfirst n v hv)

/-- A format is interpolated to the same text ever after. -/
lemma interpolate_performAll (h : s.interpolate ids format = (.ok text, s')) {ops : List Operation}
    (hops : ∀ op ∈ ops, op.OnlyAsks) : (s'.performAll ids ops).interpolate ids format =
      (.ok text, s'.performAll ids ops) := by
  obtain ⟨hrefs, rfl⟩ := value_of_interpolate h
  have hext := performAll_extends ids s' hops
  rw [interpolate_of_mem ids fun n hn => hext.mem (hrefs n hn),
    Placeholder.substitute_congr fun n hn => hext.getElem?_eq (hrefs n hn)]

lemma interpolate_of_references_eq_nil (ids : IdSource) (s : Session)
    (h : Placeholder.references format = []) : s.interpolate ids format = (.ok format, s) := by
  have hnames : (Placeholder.Cut.of format).names = [] := by
    rw [Placeholder.Cut.names_of, List.eq_nil_iff_forall_not_mem]
    intro n hn
    have href : n ∈ Placeholder.references format := List.mem_eraseDups.mpr hn
    simp [h] at href
  rw [interpolate_of_mem ids (by simp [h]), Placeholder.substitute_eq_self (by simp [hnames])]

lemma error_iff_not_ok {α : Type} {x : Outcome α} :
    (∃ e s', x = (.error e, s')) ↔ ¬ ∃ a s', x = (.ok a, s') := by
  obtain ⟨e | a, s⟩ := x <;> simp

lemma interpolate_error_iff (ids : IdSource) (s : Session) (format : String) :
    (∃ e s', s.interpolate ids format = (.error e, s')) ↔
      ∃ n ∈ Placeholder.references format, ∃ e s', s.resolveSymbol ids n = (.error e, s') := by
  simp only [error_iff_not_ok, interpolate_ok_iff, resolveSymbol_ok_iff, not_forall, exists_prop]

/-- **Interpolation leaves no placeholder**: if it succeeds, then all names that the format refers
to have values in the table that is reached, and the text is the format with its placeholders
replaced by these values, also after anything else has been asked. A format that refers to nothing
is left as it is. And interpolation fails if and only if one of the names cannot be resolved. -/
theorem interpolate_leaves_no_placeholder (ids : IdSource) (s : Session) (format : String) :
    (∀ text s', s.interpolate ids format = (.ok text, s') →
      (∀ n ∈ Placeholder.references format, n ∈ s'.values) ∧
      text = Placeholder.substitute (s'.values[·]?) format ∧
      (∀ cut : Placeholder.Cut, cut.Scans format → ∃ texts,
        List.Forall₂ (fun n v => s'.values[n]? = some v) cut.names texts ∧
          text = cut.weave texts) ∧
      ∀ ops : List Operation, (∀ op ∈ ops, op.OnlyAsks) →
        (s'.performAll ids ops).interpolate ids format = (.ok text, s'.performAll ids ops)) ∧
    (Placeholder.references format = [] → s.interpolate ids format = (.ok format, s)) ∧
    ((∃ e s', s.interpolate ids format = (.error e, s')) ↔
      ∃ n ∈ Placeholder.references format, ∃ e s', s.resolveSymbol ids n = (.error e, s')) := by
  refine ⟨fun text s' h => ?_, interpolate_of_references_eq_nil ids s,
    interpolate_error_iff ids s format⟩
  obtain ⟨hrefs, htext⟩ := value_of_interpolate h
  refine ⟨hrefs, htext, fun cut hcut => ?_, fun ops hops => interpolate_performAll h hops⟩
  rw [htext]
  exact Placeholder.exists_weave hrefs hcut

/-- The library's slug refers to the title, which refers to an input. -/
theorem library_slug_interpolated : ∃ text s,
    ((start .library).absorbInputs Answers.library.inputs).interpolate (fun _ name => name)
      "$(slug).md by $(author)" = (.ok text, s) ∧
    text = Placeholder.substitute (s.values[·]?) "$(slug).md by $(author)" ∧
    ∀ ops : List Operation, (∀ op ∈ ops, op.OnlyAsks) →
      (s.performAll (fun _ name => name) ops).interpolate (fun _ name => name)
        "$(slug).md by $(author)" = (.ok text, s.performAll (fun _ name => name) ops) := by
  obtain ⟨text, htext⟩ := isOk_iff.mp (by decide +kernel :
    (((start .library).absorbInputs Answers.library.inputs).interpolate (fun _ name => name)
      "$(slug).md by $(author)").1.isOk)
  have h : ((start .library).absorbInputs Answers.library.inputs).interpolate (fun _ name => name)
      "$(slug).md by $(author)" = (.ok text, _) := Prod.ext htext rfl
  obtain ⟨-, hsubst, -, hstays⟩ := (interpolate_leaves_no_placeholder (fun _ name => name)
    ((start .library).absorbInputs Answers.library.inputs) "$(slug).md by $(author)").1 text _ h
  exact ⟨text, _, h, hsubst, hstays⟩

end Session

end Stencil

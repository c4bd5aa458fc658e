import Stencil.Answers.Dialogue
import Stencil.Proofs.Except
import Stencil.Proofs.Resolution.Table

/-!
What the dialogue makes of the answers.

Gathering goes through the questions one after the other and asks only those that the table has no
answer to. So a table that has come out of it keeps what was there, answers all questions, and what
is new in it was accepted by the first question of its name. A table that answers all questions is
left alone, and no line is read: this is why completing is idempotent.
-/

namespace Stencil

/-! ### Registered names -/

namespace Registry

variable {r : Registry} {name : String}

lemma mem_names_iff : name ∈ r.names ↔ ∃ t ∈ r.templates, t.name = name := List.mem_map

lemma contains_iff : r.contains name ↔ name ∈ r.names := by
  simp [contains, mem_names_iff]

lemma get?_isSome_iff : (r.get? name).isSome ↔ name ∈ r.names := by
  simp [get?, List.find?_isSome, mem_names_iff]

lemma name_of_get? {t : Template} (h : r.get? name = some t) : t.name = name := by
  simpa using List.find?_some h

lemma mem_templates_of_get? {t : Template} (h : r.get? name = some t) : t ∈ r.templates :=
  List.mem_of_find?_eq_some h

end Registry

namespace Dialogue

/-! ### Questions -/

/-- A line that is taken for an answer is one that the question accepts. -/
lemma Question.accepts_of_ask {q : Question} {lines : List Line} {answer : String}
    (h : (q.ask lines).result = .ok answer) : q.accepts answer := by
  induction lines with
  | nil => simp [ask] at h
  | cons line rest ih =>
    cases line with
    | none => simp [ask] at h
    | some text =>
      by_cases ht : q.accepts text
      · simp only [ask, if_pos ht, Except.ok.injEq] at h
        exact h ▸ ht
      · simp only [ask, if_neg ht] at h
        exact ih h

/-- The table `got` answers the questions, with accepted lines for those that `known` does not. -/
structure Answered (qs : List Question) (known got : Bindings) : Prop where
  /-- No answer is lost or replaced. -/
  extends_known : got.Extends known
  /-- Each question has an answer. -/
  mem : ∀ q ∈ qs, q.what ∈ got
  /-- What is new was accepted by the first question for it. -/
  accepted : ∀ n v, got[n]? = some v → n ∉ known →
    ∃ q, qs.find? (·.what = n) = some q ∧ q.accepts v

namespace Answered

variable {q : Question} {qs : List Question} {known got : Bindings}

protected lemma nil (known : Bindings) : Answered [] known known where
  extends_known _ _ h := h
  mem := by simp
  accepted n v hv hn := absurd (mem_iff_exists.mpr ⟨v, hv⟩) hn

/-- A question that has an answer already makes no difference. -/
lemma cons_of_mem (hq : q.what ∈ known) (h : Answered qs known got) :
    Answered (q :: qs) known got where
  extends_known := h.extends_known
  mem := List.forall_mem_cons.mpr ⟨h.extends_known.mem hq, h.mem⟩
  accepted n v hv hn := by
    have hne : q.what ≠ n := fun heq => hn (heq ▸ hq)
    rw [List.find?_cons_of_neg (by simpa using hne)]
    exact h.accepted n v hv hn

/-- An accepted line answers the first question, and the others come after it. -/
lemma cons_of_accepts (hq : q.what ∉ known) {answer : String} (ha : q.accepts answer)
    (h : Answered qs (known.insert q.what answer) got) : Answered (q :: qs) known got where
  extends_known n v hv := by
    have hne : q.what ≠ n := by
      rintro rfl
      exact hq (mem_iff_exists.mpr ⟨v, hv⟩)
    exact h.extends_known n v (by simp [Std.ExtTreeMap.getElem?_insert, hne, hv])
  mem := by
    refine List.forall_mem_cons.mpr ⟨h.extends_known.mem ?_, h.mem⟩
    simp
  accepted n v hv hn := by
    by_cases heq : q.what = n
    · have hgot : got[n]? = some answer := h.extends_known n answer (by simp [heq])
      obtain rfl : v = answer := Option.some.inj (hv.symm.trans hgot)
      exact ⟨q, List.find?_cons_of_pos (by simpa using heq), ha⟩
    · rw [List.find?_cons_of_neg (by simpa using heq)]
      exact h.accepted n v hv (by simp [heq, hn])

end Answered

/-! ### Gathering -/

/-- **Gathering to the end answers all questions.** -/
theorem answered_of_gather {qs : List Question} {known got : Bindings} {lines : List Line}
    (h : (gather known qs lines).result = (none, got)) : Answered qs known got := by
  induction qs generalizing known lines with
  | nil =>
    obtain rfl : known = got := by simpa [gather] using h
    exact .nil known
  | cons q qs ih =>
    by_cases hq : q.what ∈ known
    · simp only [gather, Std.ExtTreeMap.contains_iff_mem, if_pos hq] at h
      exact (ih h).cons_of_mem hq
    · simp only [gather, Std.ExtTreeMap.contains_iff_mem, if_neg hq] at h
      split at h
      · simp at h
      · next answer output rest hask =>
        exact (ih h).cons_of_accepts hq (Question.accepts_of_ask (by rw [hask]))

/-- Nothing is asked where all questions have answers. -/
lemma gather_of_mem {qs : List Question} {known : Bindings} (h : ∀ q ∈ qs, q.what ∈ known)
    (lines : List Line) : gather known qs lines = ⟨(none, known), "", lines⟩ := by
  induction qs with
  | nil => rfl
  | cons q qs ih =>
    obtain ⟨hq, hqs⟩ := List.forall_mem_cons.mp h
    simp only [gather, Std.ExtTreeMap.contains_iff_mem, if_pos hq, ih hqs]

end Dialogue

/-! ### Completing -/

/-- The answers `b` keep all that is in `a`. -/
structure Answers.Extends (b a : Answers) : Prop where
  template : ∀ name, a.template? = some name → b.template? = some name
  inputs : b.inputs.Extends a.inputs
  cases : b.cases.Extends a.cases

/-- The answers `b` have all that the template asks the user for, and nothing else that `a` does
not have. -/
structure Template.Completes (t : Template) (a b : Answers) : Prop where
  inputs : ∀ k ∈ t.keysOfKind .input, k.name ∈ b.inputs
  cases : ∀ s ∈ t.switchesOfType "input", s.name ∈ b.cases
  addedInputs : ∀ n v, b.inputs[n]? = some v → n ∉ a.inputs →
    v ≠ "" ∧ ∃ k ∈ t.keysOfKind .input, k.name = n
  /-- Of several input switches of one name, the first one is put to the user. -/
  addedCases : ∀ n v, b.cases[n]? = some v → n ∉ a.cases →
    ∃ s, (t.switchesOfType "input").find? (·.name = n) = some s ∧ v ∈ s.caseNames

namespace Dialogue

variable {r : Registry} {t : Template} {name : String} {a b : Answers} {lines : List Line}

lemma completes_of_answered (hi : Answered (inputQuestions t) a.inputs b.inputs)
    (hc : Answered (caseQuestions t) a.cases b.cases) : t.Completes a b where
  inputs k hk := hi.mem _ (List.mem_map_of_mem hk)
  cases s hs := hc.mem _ (List.mem_map_of_mem hs)
  addedInputs n v hv hn := by
    obtain ⟨q, hq, hacc⟩ := hi.accepted n v hv hn
    obtain ⟨k, hk, rfl⟩ := List.mem_map.mp (List.mem_of_find?_eq_some hq)
    have hname : k.name = n := by simpa [inputQuestion] using List.find?_some hq
    exact ⟨by simpa [inputQuestion] using hacc, k, hk, hname⟩
  addedCases n v hv hn := by
    obtain ⟨q, hq, hacc⟩ := hc.accepted n v hv hn
    rw [caseQuestions, List.find?_map, Option.map_eq_some_iff] at hq
    obtain ⟨s, hs, rfl⟩ := hq
    exact ⟨s, hs, by simpa [caseQuestion] using hacc⟩

/-- For a registered template all that it asks for is answered, and for another one nothing is. -/
lemma completeFor_ok (h : (completeFor r name a lines).result = .ok b) :
    b.template? = some name ∧ b.inputs.Extends a.inputs ∧ b.cases.Extends a.cases ∧
      (∀ t, r.get? name = some t → t.Completes a b) ∧
      (r.get? name = none → b = { a with template? := some name }) := by
  unfold completeFor at h
  split at h
  · next hget =>
    obtain rfl := Except.ok.inj h
    exact ⟨rfl, fun _ _ hv => hv, fun _ _ hv => hv, by simp [hget], fun _ => rfl⟩
  · next t hget =>
    split at h
    · simp at h
    · next inputs output rest hinputs =>
      split at h
      · simp at h
      · next cases more rest' hcases =>
        obtain rfl := Except.ok.inj h
        have hi := answered_of_gather (congrArg Reply.result hinputs)
        have hc := answered_of_gather (congrArg Reply.result hcases)
        refine ⟨rfl, hi.extends_known, hc.extends_known, fun t' ht' => ?_, by simp [hget]⟩
        obtain rfl := Option.some.inj (hget.symm.trans ht')
        exact completes_of_answered hi hc

/-- The dialogue chooses a template if none is chosen, and goes on for that one. -/
lemma exists_completeFor (h : (complete r a lines).result = .ok b) :
    ∃ name rest, (a.template? = some name ∨ a.template? = none ∧ name ∈ r.names) ∧
      (completeFor r name a rest).result = .ok b := by
  unfold complete at h
  split at h
  · next name hname => exact ⟨name, lines, .inl hname, h⟩
  · next hnone =>
    split at h
    · simp at h
    · next name output rest hchoice =>
      have hname : (templateQuestion r).accepts name :=
        Question.accepts_of_ask (congrArg Reply.result hchoice)
      exact ⟨name, rest, .inr ⟨hnone, Registry.contains_iff.mp hname⟩, h⟩

/-- Nothing is asked for a template that the answers are complete for. -/
lemma complete_of_completes (hname : b.template? = some name)
    (h : ∀ t, r.get? name = some t → t.Completes a b) (lines : List Line) :
    complete r b lines = ⟨.ok b, "", lines⟩ := by
  have hb : ⟨some name, b.inputs, b.cases⟩ = b := by rw [← hname]
  simp only [complete, hname, completeFor]
  split
  · rw [hb]
  · next t hget =>
    have hi : ∀ q ∈ inputQuestions t, q.what ∈ b.inputs :=
      List.forall_mem_map.mpr (h t hget).inputs
    have hc : ∀ q ∈ caseQuestions t, q.what ∈ b.cases :=
      List.forall_mem_map.mpr (h t hget).cases
    simp only [collectInputs, collectCases, gather_of_mem hi, gather_of_mem hc, hb]
    rfl

/-- **Completing answers is conservative, complete and idempotent.** Nothing is lost of the answers
that were there. What the template asks for has an answer then, and only such answers are new. So
nothing is left to ask, whatever the input is. -/
theorem complete_ok (h : (complete r a lines).result = .ok b) :
    b.Extends a ∧
    (∃ name, b.template? = some name ∧ (a.template? = none → name ∈ r.names) ∧
      (∀ t, r.get? name = some t → t.Completes a b) ∧ (r.get? name = none → b = a)) ∧
    ∀ lines', complete r b lines' = ⟨.ok b, "", lines'⟩ := by
  obtain ⟨name, rest, hname, hfor⟩ := exists_completeFor h
  obtain ⟨htemplate, hinputs, hcases, hcompletes, hother⟩ := completeFor_ok hfor
  refine ⟨⟨fun n hn => ?_, hinputs, hcases⟩, ⟨name, htemplate, fun hnone => ?_, hcompletes,
    fun hget => ?_⟩, complete_of_completes htemplate hcompletes⟩
  · obtain rfl : n = name := by simpa [hn] using hname
    exact htemplate
  · simpa [hnone] using hname
  · -- only a name that was there before need not be registered
    have hmem : name ∉ r.names := by rw [← Registry.get?_isSome_iff, hget]; simp
    have hold : a.template? = some name := hname.resolve_right fun hnew => hmem hnew.2
    rw [hother hget, ← hold]

/-- A template with two input switches of one name, of which only the first one is asked for. -/
def report : Template where
  name := "report"
  description := "A report"
  keys := [⟨"title", "input", Std.ExtTreeMap.ofList [("prompt", "Title: ")]⟩,
    ⟨"author", "input", ∅⟩]
  switches := [⟨"paper", "input", some "Paper", [⟨"a4", []⟩, ⟨"letter", []⟩]⟩,
    ⟨"paper", "input", some "Size", [⟨"a5", []⟩]⟩]
  folders := []

/-- The author of the report is known. -/
def reportAnswers : Answers :=
  { Answers.empty with inputs := Std.ExtTreeMap.ofList [("author", "Jane")] }

/-- Each question has a wrong answer before the right one. -/
def reportLines : List Line :=
  ["paper", "report", "", "Survey", "a5", "letter", "more"].map some

lemma exists_complete_report :
    ∃ b, (complete ⟨[report]⟩ reportAnswers reportLines).result = .ok b :=
  isOk_iff.mp (by decide +kernel)

theorem complete_report : ∃ b, (complete ⟨[report]⟩ reportAnswers reportLines).result = .ok b ∧
    b.Extends reportAnswers ∧ ∀ lines, complete ⟨[report]⟩ b lines = ⟨.ok b, "", lines⟩ := by
  obtain ⟨b, hb⟩ := exists_complete_report
  obtain ⟨hextends, -, hagain⟩ := complete_ok hb
  exact ⟨b, hb, hextends, hagain⟩

end Dialogue

end Stencil

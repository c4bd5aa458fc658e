import Stencil.Proofs.Answers.Asking
import Stencil.Proofs.Answers.Completion
import Stencil.Proofs.Config.Loading

/-!
Which templates can be completed.

The dialogue puts each question until a line answers it. The choice of a template and the inputs have
an answer that can be typed, and so has a switch with a case; all answers together, in the order of
the questions, complete the template. A switch of the user's that has no cases passes all checks of a
config, but no line answers it, and the dialogue goes on asking to the end of its input.
-/

namespace Stencil

lemma Registry.get?_of_mem {r : Registry} {t : Template} (hnodup : r.names.Nodup)
    (ht : t ∈ r.templates) : r.get? t.name = some t := by
  have hsome : (r.get? t.name).isSome := get?_isSome_iff.mpr (List.mem_map_of_mem ht)
  obtain ⟨found, hfound⟩ := Option.isSome_iff_exists.mp hsome
  have hsame : found = t :=
    List.inj_on_of_nodup_map hnodup (mem_templates_of_get? hfound) ht (name_of_get? hfound)
  rw [hfound, hsame]

/-- The user is asked for a case of this switch: no other input switch of its name comes before it. -/
def Template.Asks (t : Template) (s : Switch) : Prop :=
  (t.switchesOfType "input").find? (·.name = s.name) = some s

namespace Dialogue

variable {qs : List Question} {q : Question} {known : Bindings} {line : String}
  {lines : List String} {cs : List Char} {r : Registry} {t : Template} {s : Switch}

/-! ### Typing lines -/

/-- The line is read as it is typed: a line feed would end it before, and a carriage return at its
end would be dropped. -/
def OneLine (line : String) : Prop := '\n' ∉ line.toList ∧ line.toList.getLast? ≠ some '\r'

instance (line : String) : Decidable (OneLine line) :=
  inferInstanceAs (Decidable (_ ∧ _))

/-- The lines, with a line feed after each of them. -/
def typed (lines : List String) : String := String.join (lines.map (· ++ "\n"))

lemma stretches_append (h : '\n' ∉ cs) (rest : List Char) :
    stretches (cs ++ '\n' :: rest) = (cs ++ ['\n']) :: stretches rest := by
  induction cs with
  | nil => rw [List.nil_append, stretches, if_pos rfl, List.nil_append]
  | cons c cs ih =>
    obtain ⟨hc, hcs⟩ := not_or.mp (mt List.mem_cons.mpr h)
    rw [List.cons_append, stretches, if_neg (Ne.symm hc), ih hcs]
    rfl

lemma OneLine.trimmed_append (h : OneLine line) : trimmed (line.toList ++ ['\n']) = line := by
  have hfeed : isBreak '\n' := by decide
  have hkept : line.toList.reverse.dropWhile isBreak = line.toList.reverse := by
    cases hrev : line.toList.reverse with
    | nil => rfl
    | cons c cs =>
      have hlast : line.toList.getLast? = some c := by
        rw [List.getLast?_eq_head?_reverse, hrev, List.head?_cons]
      have hmem : c ∈ line.toList := List.mem_of_getLast? hlast
      have hreturn : c ≠ '\r' := fun hc => h.2 (hc ▸ hlast)
      have hnofeed : c ≠ '\n' := fun hc => h.1 (hc ▸ hmem)
      exact List.dropWhile_cons_of_neg (by simp [isBreak, hreturn, hnofeed])
  rw [trimmed, List.reverse_append, List.reverse_singleton, List.singleton_append,
    List.dropWhile_cons_of_pos hfeed, hkept, List.reverse_reverse, String.ofList_toList]

/-- Lines are read as they are typed. -/
lemma textLines_typed (h : ∀ line ∈ lines, OneLine line) : textLines (typed lines) = lines := by
  induction lines with
  | nil => rfl
  | cons line lines ih =>
    obtain ⟨hline, hlines⟩ := List.forall_mem_cons.mp h
    have hchars : (typed (line :: lines)).toList =
        line.toList ++ '\n' :: (typed lines).toList := by
      simp [typed, String.toList_join]
    have hrest : (stretches (typed lines).toList).map trimmed = lines := ih hlines
    rw [textLines, hchars, stretches_append hline.1, List.map_cons, hline.trimmed_append, hrest]

/-! ### Answers to the questions -/

/-- An open question has no answer yet, and is the first one of its name. -/
lemma find?_of_mem_unanswered (hq : q ∈ unanswered known qs) :
    q.what ∉ known ∧ qs.find? (·.what = q.what) = some q := by
  induction qs generalizing known with
  | nil => simp [unanswered] at hq
  | cons first qs ih =>
    by_cases hfirst : known.contains first.what
    · rw [unanswered_cons_of_contains hfirst] at hq
      obtain ⟨hnew, hfind⟩ := ih hq
      have hne : first.what ≠ q.what := by
        intro heq
        exact hnew (heq ▸ Std.ExtTreeMap.contains_iff_mem.mp hfirst)
      exact ⟨hnew, by rw [List.find?_cons_of_neg (by simpa using hne), hfind]⟩
    · rw [unanswered_cons hfirst "", List.mem_cons] at hq
      rcases hq with rfl | hq
      · exact ⟨mt Std.ExtTreeMap.contains_iff_mem.mpr hfirst, List.find?_cons_of_pos (by simp)⟩
      · obtain ⟨hnew, hfind⟩ := ih hq
        rw [Std.ExtTreeMap.mem_insert, not_or] at hnew
        have hne : first.what ≠ q.what := by simpa using hnew.1
        exact ⟨hnew.2, by rw [List.find?_cons_of_neg (by simpa using hne), hfind]⟩

/-- What a template still asks for is a value for an input, or a case of a switch. -/
lemma of_mem_agenda (hget : r.get? t.name = some t) {a : Answers}
    (hq : q ∈ (Agenda.of r a (some t.name)).inputs ++ (Agenda.of r a (some t.name)).cases) :
    (∃ k, q = inputQuestion k) ∨ ∃ s, t.Asks s ∧ q = caseQuestion s := by
  simp only [Agenda.of, Option.bind_some, hget, Option.elim_some, List.mem_append] at hq
  rcases hq with hq | hq
  · have hmem := List.mem_of_find?_eq_some (find?_of_mem_unanswered hq).2
    obtain ⟨k, -, hk⟩ := List.mem_map.mp hmem
    exact .inl ⟨k, hk.symm⟩
  · have hfind := (find?_of_mem_unanswered hq).2
    rw [caseQuestions, List.find?_map, Option.map_eq_some_iff] at hfind
    obtain ⟨s, hs, rfl⟩ := hfind
    exact .inr ⟨s, hs, rfl⟩

/-- All that a template asks for has answers if its switches have cases. -/
lemma exists_answers (hget : r.get? t.name = some t) (hasks : ∀ s, t.Asks s → s.cases ≠ [])
    (hlines : ∀ s ∈ t.switches, ∀ name ∈ s.caseNames, OneLine name) {a : Answers} :
    ∃ as : List String, (∀ line ∈ as, OneLine line) ∧
      List.Forall₂ (fun q line => q.accepts line)
        ((Agenda.of r a (some t.name)).inputs ++ (Agenda.of r a (some t.name)).cases) as := by
  have hone : ∀ q ∈ (Agenda.of r a (some t.name)).inputs ++ (Agenda.of r a (some t.name)).cases,
      ∃ line, OneLine line ∧ q.accepts line := by
    intro q hq
    rcases of_mem_agenda hget hq with ⟨k, rfl⟩ | ⟨s, hs, rfl⟩
    · exact ⟨"-", ⟨by decide, by decide⟩, rfl⟩
    · obtain ⟨c, hc⟩ := List.exists_mem_of_ne_nil _ (hasks s hs)
      have hname : c.name ∈ s.caseNames := List.mem_map_of_mem hc
      have hmem : s ∈ t.switches := List.mem_of_mem_filter (List.mem_of_find?_eq_some hs)
      exact ⟨c.name, hlines s hmem c.name hname, decide_eq_true hname⟩
  choose! answer hread haccepts using hone
  refine ⟨_, List.forall_mem_map.mpr hread, List.forall₂_map_right_iff.mpr ?_⟩
  exact List.forall₂_same.mpr haccepts

/-! ### Completing a template -/

/-- Some input leads from empty answers to complete ones for the template of that name. -/
def Completable (r : Registry) (name : String) : Prop :=
  ∃ (input : ByteArray) (b : Answers),
    (complete r .empty (linesOf input)).result = .ok b ∧ b.template? = some name

lemma completable_of_answers (hname : OneLine t.name) (hget : r.get? t.name = some t)
    {as : List String} (hread : ∀ line ∈ as, OneLine line)
    (has : List.Forall₂ (fun q line => q.accepts line)
      ((Agenda.of r .empty (some t.name)).inputs ++ (Agenda.of r .empty (some t.name)).cases) as) :
    Completable r t.name := by
  have hlisted : r.contains t.name :=
    Registry.contains_iff.mpr (Registry.get?_isSome_iff.mp (by simp [hget]))
  have hfind : (t.name :: as).find? r.contains = some t.name := List.find?_cons_of_pos hlisted
  have hall : List.Forall₂ (fun q line => q.accepts line)
      (Agenda.of r .empty (some t.name)).all (t.name :: as) := .cons hlisted has
  obtain ⟨h, hhears, hresult⟩ :=
    exists_hears_of_unchosen (r := r) (a := .empty) rfl (t.name :: as) rfl
  rw [hfind] at hhears hresult
  have hnone : h.missing? = none :=
    hhears.missing?_eq_none_iff.mpr ⟨t.name :: as, List.Sublist.refl _, hall⟩
  have hinput : linesOf (typed (t.name :: as)).toUTF8 = (t.name :: as).map some := by
    rw [linesOf_toUTF8, textLines_typed (List.forall_mem_cons.mpr ⟨hname, hread⟩)]
  refine ⟨(typed (t.name :: as)).toUTF8,
    (Agenda.of r .empty (some t.name)).fill .empty (some t.name) h.answers, ?_, rfl⟩
  rw [hinput, hresult, Hearing.verdict, hnone]
  rfl

lemma cases_ne_nil_of_completable (hget : r.get? t.name = some t) (h : Completable r t.name)
    (hs : t.Asks s) : s.cases ≠ [] := by
  obtain ⟨input, b, hcomplete, htemplate⟩ := h
  obtain ⟨name, rest, -, hfor⟩ := exists_completeFor hcomplete
  obtain ⟨hchosen, -, -, hcompletes, -⟩ := completeFor_ok hfor
  obtain rfl : t.name = name := Option.some.inj (htemplate.symm.trans hchosen)
  have hc := hcompletes t hget
  obtain ⟨case, hcase⟩ := mem_iff_exists.mp (hc.cases s (List.mem_of_find?_eq_some hs))
  -- the case that was taken for the switch is one of its own
  obtain ⟨s', hs', hmem⟩ := hc.addedCases s.name case hcase (by simp [Answers.empty])
  obtain rfl : s = s' := Option.some.inj (hs.symm.trans hs')
  obtain ⟨c, hc, -⟩ := List.mem_map.mp hmem
  exact List.ne_nil_of_mem hc

lemma get?_of_load {source : String} (hload : Config.load source = .ok r) (ht : t ∈ r.templates) :
    r.get? t.name = some t := by
  obtain ⟨d, -, -, hd⟩ := Config.load_eq_ok_iff.mp hload
  exact Registry.get?_of_mem (Registry.ofDocument_eq_ok_iff.mp hd).2 ht

/-- **A loaded template can be completed exactly if no switch without cases is asked for.** -/
theorem completable_iff {source : String} (hload : Config.load source = .ok r)
    (ht : t ∈ r.templates) (hname : OneLine t.name)
    (hlines : ∀ s ∈ t.switches, ∀ name ∈ s.caseNames, OneLine name) :
    Completable r t.name ↔ ∀ s, t.Asks s → s.cases ≠ [] := by
  have hget := get?_of_load hload ht
  refine ⟨fun h s => cases_ne_nil_of_completable hget h, fun hasks => ?_⟩
  obtain ⟨as, hread, has⟩ := exists_answers hget hasks hlines
  exact completable_of_answers hname hget hread has

/-- Two templates with a switch for the user, which has no cases in the second one. -/
def surveySource : String :=
  "<config><template name='open' desc='d'><key name='title' type='input' prompt='Title: '/>" ++
  "<switch name='paper' type='input' prompt='Paper'><case name='a4'/></switch></template>" ++
  "<template name='shut' desc='d'><switch name='paper' type='input' prompt='Paper'/></template>" ++
  "</config>"

/-- The switches of each template, with the names of their cases. -/
def outline (r : Registry) : List (String × List (String × String × List String)) :=
  r.templates.map fun t => (t.name, t.switches.map fun s => (s.name, s.typeTag, s.caseNames))

lemma any_load_survey : (Config.load surveySource).toOption.any fun r => outline r =
    [("open", [("paper", "input", ["a4"])]), ("shut", [("paper", "input", [])])] := by
  have hchars : surveySource =
      String.ofList _ ++ String.ofList _ ++ String.ofList _ ++ String.ofList _ := rfl
  rw [Config.load, hchars, ← String.ofList_append, ← String.ofList_append, ← String.ofList_append,
    Config.parse_ofList]
  decide +kernel

/-- The two templates have one switch each, with a case and without. -/
lemma exists_load_survey : ∃ r t u s s', Config.load surveySource = .ok r ∧
    r.templates = [t, u] ∧ t.name = "open" ∧ u.name = "shut" ∧ t.switches = [s] ∧
    s.caseNames = ["a4"] ∧ u.switches = [s'] ∧ s'.typeTag = "input" ∧ s'.caseNames = [] := by
  obtain ⟨r, hr, houtline⟩ := exists_of_toOption_any any_load_survey
  obtain ⟨t, rest, htemplates, ht, hrest⟩ :=
    List.map_eq_cons_iff.mp (of_decide_eq_true houtline)
  obtain ⟨u, rfl, hu⟩ := List.map_eq_singleton_iff.mp hrest
  obtain ⟨htname, htswitches⟩ := Prod.mk.inj ht
  obtain ⟨huname, huswitches⟩ := Prod.mk.inj hu
  obtain ⟨s, hs, hcase⟩ := List.map_eq_singleton_iff.mp htswitches
  obtain ⟨s', hs', hnone⟩ := List.map_eq_singleton_iff.mp huswitches
  obtain ⟨-, -, hcases⟩ := (by simpa using hcase : _ ∧ _ ∧ _)
  obtain ⟨-, htag, hcases'⟩ := (by simpa using hnone : _ ∧ _ ∧ _)
  exact ⟨r, t, u, s, s', hr, htemplates, htname, huname, hs, hcases, hs', htag, hcases'⟩

theorem completable_survey : ∃ r, Config.load surveySource = .ok r ∧
    Completable r "open" ∧ ¬Completable r "shut" := by
  obtain ⟨r, t, u, s, s', hr, hts, ht, hu, hs, hcase, hs', htag, hnone⟩ := exists_load_survey
  have hopen := completable_iff (t := t) hr (by simp [hts]) (by rw [ht]; decide)
    (by simpa [hs, hcase] using (by decide : OneLine "a4"))
  have hshut := completable_iff (t := u) hr (by simp [hts]) (by rw [hu]; decide)
    (by simp [hs', hnone])
  rw [ht] at hopen
  rw [hu] at hshut
  refine ⟨r, hr, hopen.mpr fun asked hasked hnil => ?_, fun h => hshut.mp h s' ?_ ?_⟩
  · have hmem := List.mem_of_mem_filter (List.mem_of_find?_eq_some hasked)
    obtain rfl : asked = s := by simpa [hs] using hmem
    simp [Switch.caseNames, hnil] at hcase
  · simp [Template.Asks, Template.switchesOfType, hs', htag]
  · simpa [Switch.caseNames] using hnone

/-- Not all loaded templates can be completed. -/
theorem not_all_completable : ¬ ∀ (source : String) (r : Registry) (t : Template),
    Config.load source = .ok r → t ∈ r.templates → OneLine t.name →
      (∀ s ∈ t.switches, ∀ name ∈ s.caseNames, OneLine name) → Completable r t.name := by
  intro h
  obtain ⟨r, t, u, -, s, hr, hts, -, hu, -, -, hs, htag, hnone⟩ := exists_load_survey
  have hmem : u ∈ r.templates := by simp [hts]
  have hasked : u.Asks s := by simp [Template.Asks, Template.switchesOfType, hs, htag]
  have hcomplete := h surveySource r u hr hmem (by rw [hu]; decide) (by simp [hs, hnone])
  exact cases_ne_nil_of_completable (get?_of_load hr hmem) hcomplete hasked
    (by simpa [Switch.caseNames] using hnone)

end Dialogue

end Stencil

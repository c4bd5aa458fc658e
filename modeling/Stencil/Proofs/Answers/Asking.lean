import Mathlib.Data.List.Forall2
import Stencil.Proofs.Answers.Lines

/-!
Which line answers which question.

A question takes the first line that it accepts and passes over those before it, and the next question
goes on after that line. So the questions are answered one after the other up to the end of the lines,
and all of them are answered if the lines hold answers to them in their order at all: taking the first
acceptable line never spoils a later answer.
-/

namespace Stencil.Dialogue

/-- What came of putting questions to lines. -/
structure Hearing where
  /-- The lines that answer the first questions, one each. -/
  answers : List String
  /-- The first question without an answer. -/
  missing? : Option Question
  /-- The lines after the last one that was taken. -/
  unread : List String

namespace Hearing

variable (h : Hearing)

/-- The input has ended at the first question without an answer. -/
def error? : Option PromptError := h.missing?.map (.endOfInput ·.what)

/-- The answers to all questions. -/
def verdict : Except PromptError (List String) :=
  match h.missing? with
  | none => .ok h.answers
  | some q => .error (.endOfInput q.what)

end Hearing

/-- Each question is answered by the first line that it accepts among those that the earlier ones
have left, up to a question that accepts none of them. -/
inductive Asked : List Question → List String → Hearing → Prop
  | done (lines : List String) : Asked [] lines ⟨[], none, lines⟩
  | answered {q qs} {skipped lines : List String} {answer : String} {h : Hearing}
      (hskip : ∀ line ∈ skipped, ¬q.accepts line) (ha : q.accepts answer) (hqs : Asked qs lines h) :
      Asked (q :: qs) (skipped ++ answer :: lines) ⟨answer :: h.answers, h.missing?, h.unread⟩
  | ended {q qs} {lines : List String} (hno : ∀ line ∈ lines, ¬q.accepts line) :
      Asked (q :: qs) lines ⟨[], some q, []⟩

variable {q : Question} {qs qs' : List Question} {known : Bindings} {lines : List String}
  {h h' : Hearing} {r : Registry} {t : Template} {a : Answers} {name : String}

/-! ### One question -/

/-- The first acceptable line, with those before and after it, if there is one. -/
lemma first_acceptable (q : Question) (lines : List String) :
    (∀ line ∈ lines, ¬q.accepts line) ∨
      ∃ skipped answer rest, lines = skipped ++ answer :: rest ∧
        (∀ line ∈ skipped, ¬q.accepts line) ∧ q.accepts answer := by
  cases hfind : lines.find? q.accepts with
  | none => exact .inl (by simpa using hfind)
  | some answer =>
    obtain ⟨ha, skipped, rest, hlines, hskip⟩ := List.find?_eq_some_iff_append.mp hfind
    exact .inr ⟨skipped, answer, rest, hlines, by simpa using hskip, ha⟩

/-- There is one way to cut lines at the first acceptable one. -/
lemma split_unique {skipped skipped' rest rest' : List String} {answer answer' : String}
    (hskip : ∀ line ∈ skipped, ¬q.accepts line) (ha : q.accepts answer)
    (hskip' : ∀ line ∈ skipped', ¬q.accepts line) (ha' : q.accepts answer')
    (hsplit : skipped ++ answer :: rest = skipped' ++ answer' :: rest') :
    skipped = skipped' ∧ answer = answer' ∧ rest = rest' := by
  induction skipped generalizing skipped' with
  | nil =>
    cases skipped' with
    | nil => simpa using hsplit
    | cons line skipped' =>
      obtain ⟨rfl, -⟩ := List.cons_eq_cons.mp hsplit
      exact absurd ha (hskip' answer List.mem_cons_self)
  | cons line skipped ih =>
    cases skipped' with
    | nil =>
      obtain ⟨rfl, -⟩ := List.cons_eq_cons.mp hsplit
      exact absurd ha' (hskip line List.mem_cons_self)
    | cons line' skipped' =>
      obtain ⟨rfl, htail⟩ := List.cons_eq_cons.mp hsplit
      obtain ⟨rfl, hrest⟩ := ih (List.forall_mem_cons.mp hskip).2
        (List.forall_mem_cons.mp hskip').2 htail
      exact ⟨rfl, hrest⟩

lemma ask_answered {skipped : List String} {answer : String}
    (hskip : ∀ line ∈ skipped, ¬q.accepts line) (ha : q.accepts answer) (rest : List String) :
    ∃ output, q.ask ((skipped ++ answer :: rest).map some) = ⟨.ok answer, output, rest.map some⟩ := by
  induction skipped with
  | nil => exact ⟨q.prompt, by simp [Question.ask, ha]⟩
  | cons line skipped ih =>
    obtain ⟨hline, hskip⟩ := List.forall_mem_cons.mp hskip
    obtain ⟨output, hask⟩ := ih hskip
    exact ⟨q.prompt ++ q.refusal ++ output, by
      rw [List.cons_append, List.map_cons, Question.ask, if_neg hline, hask]⟩

lemma ask_ended (hno : ∀ line ∈ lines, ¬q.accepts line) :
    ∃ output, q.ask (lines.map some) = ⟨.error (.endOfInput q.what), output, []⟩ := by
  induction lines with
  | nil => exact ⟨q.prompt, rfl⟩
  | cons line lines ih =>
    obtain ⟨hline, hno⟩ := List.forall_mem_cons.mp hno
    obtain ⟨output, hask⟩ := ih hno
    exact ⟨q.prompt ++ q.refusal ++ output, by
      rw [List.map_cons, Question.ask, if_neg hline, hask]⟩

/-! ### Several questions -/

namespace Asked

/-- The questions and the lines leave no choice. -/
lemma unique (hasked : Asked qs lines h) (hasked' : Asked qs lines h') : h = h' := by
  induction hasked generalizing h' with
  | done => cases hasked'; rfl
  | @answered q qs skipped lines answer h hskip ha hqs ih =>
    generalize hsplit : skipped ++ answer :: lines = all at hasked'
    cases hasked' with
    | @answered _ _ skipped' lines' answer' h' hskip' ha' hqs' =>
      obtain ⟨rfl, rfl, rfl⟩ := split_unique hskip ha hskip' ha' hsplit
      rw [ih hqs']
    | ended hno =>
      exact absurd ha (hno answer (hsplit ▸ by simp))
  | ended hno =>
    cases hasked' with
    | @answered _ _ skipped' lines' answer' h' hskip' ha' hqs' =>
      exact absurd ha' (hno answer' (by simp))
    | ended => rfl

lemma length_eq (hasked : Asked qs lines h) (hnone : h.missing? = none) :
    h.answers.length = qs.length := by
  induction hasked with
  | done => rfl
  | answered _ _ _ ih => simp [ih hnone]
  | ended => simp at hnone

/-- After the last answer, further questions go on with the lines that are left. -/
lemma append (hasked : Asked qs lines h) (hnone : h.missing? = none)
    (hasked' : Asked qs' h.unread h') :
    Asked (qs ++ qs') lines ⟨h.answers ++ h'.answers, h'.missing?, h'.unread⟩ := by
  induction hasked with
  | done => exact hasked'
  | answered hskip ha _ ih => exact .answered hskip ha (ih hnone hasked')
  | ended => simp at hnone

/-- Nothing more is asked after a question without an answer. -/
lemma append_of_missing (hasked : Asked qs lines h) (hsome : h.missing? ≠ none)
    (qs' : List Question) : Asked (qs ++ qs') lines h := by
  induction hasked with
  | done => exact absurd rfl hsome
  | answered hskip ha _ ih => exact .answered hskip ha (ih hsome)
  | ended hno => exact .ended hno

/-- **No question misses its answer because an earlier one was answered too soon.** -/
lemma missing?_eq_none_iff (hasked : Asked qs lines h) : h.missing? = none ↔
    ∃ as : List String, as.Sublist lines ∧ List.Forall₂ (fun q line => q.accepts line) qs as := by
  induction hasked with
  | done => simp
  | @answered q qs skipped lines answer h hskip ha hqs ih =>
    refine ih.trans ⟨fun ⟨as, hsub, has⟩ => ?_, fun ⟨as, hsub, has⟩ => ?_⟩
    · exact ⟨answer :: as, (hsub.cons_cons answer).trans (List.sublist_append_right _ _),
        .cons ha has⟩
    · -- the answer to the first question comes no earlier than the line that was taken
      obtain ⟨first, others, hfirst, hothers, rfl⟩ := List.forall₂_cons_left_iff.mp has
      obtain ⟨before, after, hsplit, hbefore, hafter⟩ := List.sublist_append_iff.mp hsub
      cases before with
      | nil =>
        rw [List.nil_append] at hsplit
        exact ⟨others, (hsplit ▸ hafter).tail, hothers⟩
      | cons line before =>
        obtain ⟨rfl, -⟩ := List.cons_eq_cons.mp hsplit
        exact absurd hfirst (hskip first (hbefore.subset List.mem_cons_self))
  | ended hno =>
    refine iff_of_false (by simp) ?_
    rintro ⟨as, hsub, has⟩
    obtain ⟨first, others, hfirst, -, rfl⟩ := List.forall₂_cons_left_iff.mp has
    exact hno first (hsub.subset List.mem_cons_self) hfirst

end Asked

/-! ### Questions that are open -/

/-- The questions that the table has no answer to, of each name the first one. -/
def unanswered (known : Bindings) (qs : List Question) : List Question :=
  (qs.filter fun q => !known.contains q.what).eraseDupsBy fun later first => later.what == first.what

/-- The table with the answers to the first questions. -/
def record (known : Bindings) (qs : List Question) (answers : List String) : Bindings :=
  (qs.zip answers).foldl (fun table p => table.insert p.1.what p.2) known

lemma unanswered_cons_of_contains (hq : known.contains q.what) :
    unanswered known (q :: qs) = unanswered known qs := by
  simp [unanswered, hq]

/-- Once it is answered, a question is not put again. -/
lemma unanswered_cons (hq : ¬known.contains q.what) (answer : String) :
    unanswered known (q :: qs) = q :: unanswered (known.insert q.what answer) qs := by
  have hfilter : (qs.filter fun q' => !known.contains q'.what).filter
      (fun later => (later.what == q.what) = false) =
        qs.filter fun q' => !(known.insert q.what answer).contains q'.what := by
    rw [List.filter_filter]
    refine List.filter_congr fun q' _ => ?_
    by_cases hname : q.what = q'.what
    · simp [hname]
    · simp [hname, Ne.symm hname]
  have hopen : (q :: qs).filter (fun q' => !known.contains q'.what) =
      q :: qs.filter fun q' => !known.contains q'.what :=
    List.filter_cons_of_pos (by simp [hq])
  rw [unanswered, hopen, List.eraseDupsBy_cons, unanswered, ← hfilter]

/-- **Gathering puts the open questions**, and keeps the answers to them. -/
lemma exists_asked_of_gather (known : Bindings) (qs : List Question) (lines : List String) :
    ∃ h output, Asked (unanswered known qs) lines h ∧ gather known qs (lines.map some) =
      ⟨(h.error?, record known (unanswered known qs) h.answers), output, h.unread.map some⟩ := by
  induction qs generalizing known lines with
  | nil => exact ⟨_, "", .done lines, rfl⟩
  | cons q qs ih =>
    by_cases hq : known.contains q.what
    · rw [unanswered_cons_of_contains hq, gather, if_pos hq]
      exact ih known lines
    · rw [gather, if_neg hq]
      rcases first_acceptable q lines with hno | ⟨skipped, answer, rest, rfl, hskip, ha⟩
      · obtain ⟨output, hask⟩ := ask_ended hno
        refine ⟨⟨[], some q, []⟩, output, ?_, ?_⟩
        · rw [unanswered_cons hq ""]
          exact .ended hno
        · rw [hask]
          simp [Hearing.error?, record]
      · obtain ⟨output, hask⟩ := ask_answered hskip ha rest
        obtain ⟨h, more, hasked, hgather⟩ := ih (known.insert q.what answer) rest
        refine ⟨⟨answer :: h.answers, h.missing?, h.unread⟩, output ++ more, ?_, ?_⟩
        · rw [unanswered_cons hq answer]
          exact .answered hskip ha hasked
        · rw [hask]
          simp [hgather, unanswered_cons hq answer, record, Hearing.error?]

/-! ### The parts of the dialogue -/

/-- What the dialogue asks for, part by part. -/
structure Agenda where
  choice : List Question
  inputs : List Question
  cases : List Question

namespace Agenda

/-- The template is asked for if the answers name none. Then come the inputs and the cases that the
answers lack for the template of that name. -/
def of (r : Registry) (a : Answers) (name? : Option String) : Agenda where
  choice := if a.template?.isNone then [templateQuestion r] else []
  inputs := (name?.bind r.get?).elim [] fun t => unanswered a.inputs (inputQuestions t)
  cases := (name?.bind r.get?).elim [] fun t => unanswered a.cases (caseQuestions t)

variable (g : Agenda)

def all : List Question := g.choice ++ g.inputs ++ g.cases

/-- The answers with those that were given to the questions of the agenda, in their order. -/
def fill (a : Answers) (name? : Option String) (given : List String) : Answers where
  template? := name?
  inputs := record a.inputs g.inputs (given.drop g.choice.length)
  cases := record a.cases g.cases (given.drop (g.choice ++ g.inputs).length)

end Agenda

/-- What came of putting the questions to the lines, where `rest` is what a part of the dialogue has
left of its input. -/
structure Hears (qs : List Question) (lines : List String) (h : Hearing) (rest : List Line) :
    Prop where
  asked : Asked qs lines h
  /-- All questions are answered if there are lines to answer them, in the order of both. -/
  missing?_eq_none_iff : h.missing? = none ↔
    ∃ as : List String, as.Sublist lines ∧ List.Forall₂ (fun q line => q.accepts line) qs as
  /-- No line is taken that comes after the last answer. -/
  rest_eq : rest = h.unread.map some

lemma Asked.hears (hasked : Asked qs lines h) : Hears qs lines h (h.unread.map some) :=
  ⟨hasked, hasked.missing?_eq_none_iff, rfl⟩

lemma exists_hears_of_ask (q : Question) (lines : List String) :
    ∃ h, Hears [q] lines h (q.ask (lines.map some)).rest ∧
      (q.ask (lines.map some)).result.map (fun answer => [answer]) = h.verdict := by
  rcases first_acceptable q lines with hno | ⟨skipped, answer, rest, rfl, hskip, ha⟩
  · obtain ⟨output, hask⟩ := ask_ended hno
    rw [hask]
    exact ⟨⟨[], some q, []⟩, (Asked.ended hno).hears, rfl⟩
  · obtain ⟨output, hask⟩ := ask_answered hskip ha rest
    rw [hask]
    exact ⟨⟨[answer], none, rest⟩, (Asked.answered hskip ha (.done rest)).hears, rfl⟩

lemma exists_hears_of_gather (known : Bindings) (qs : List Question) (lines : List String) :
    ∃ h, Hears (unanswered known qs) lines h (gather known qs (lines.map some)).rest ∧
      (gather known qs (lines.map some)).result =
        (h.error?, record known (unanswered known qs) h.answers) := by
  obtain ⟨h, output, hasked, hgather⟩ := exists_asked_of_gather known qs lines
  rw [hgather]
  exact ⟨h, hasked.hears, rfl⟩

lemma record_append {given : List String} (hlength : given.length = qs.length)
    (more : List String) : record known qs (given ++ more) = record known qs given := by
  have hzip : (qs ++ []).zip (given ++ more) = qs.zip given ++ [].zip more :=
    List.zip_append hlength.symm
  rw [List.append_nil, List.zip_nil_left, List.append_nil] at hzip
  rw [record, hzip, record]

/-- The inputs and the cases for the template of that name. -/
lemma exists_asked_of_completeFor (r : Registry) (name : String) (a : Answers)
    (lines : List String) {g : Agenda} (hg : g = .of r a (some name)) :
    ∃ h output, Asked (g.inputs ++ g.cases) lines h ∧ completeFor r name a (lines.map some) =
      ⟨h.verdict.map fun given => ⟨some name, record a.inputs g.inputs given,
        record a.cases g.cases (given.drop g.inputs.length)⟩, output, h.unread.map some⟩ := by
  subst hg
  cases hget : r.get? name with
  | none =>
    refine ⟨⟨[], none, lines⟩, "", ?_, ?_⟩
    · simpa [Agenda.of, hget] using Asked.done lines
    · simp only [completeFor, hget, Agenda.of, Option.bind_some, Option.elim_none]
      rfl
  | some t =>
    simp only [completeFor, collectInputs, collectCases, Agenda.of, Option.bind_some, hget,
      Option.elim_some]
    obtain ⟨⟨given, _ | q, unread⟩, output, hasked, hgather⟩ :=
      exists_asked_of_gather a.inputs (inputQuestions t) lines
    · obtain ⟨⟨more, missing?, unread'⟩, output', hasked', hgather'⟩ :=
        exists_asked_of_gather a.cases (caseQuestions t) unread
      have hlength := hasked.length_eq rfl
      refine ⟨⟨given ++ more, missing?, unread'⟩, output ++ output', hasked.append rfl hasked', ?_⟩
      simp only [hgather, Hearing.error?, Option.map_none, hgather']
      cases missing? with
      | some q => rfl
      | none =>
        simp only [Option.map_none, Hearing.verdict, Except.map, record_append hlength, ← hlength,
          List.drop_left]
    · refine ⟨⟨given, some q, unread⟩, output, hasked.append_of_missing (by simp) _, ?_⟩
      simp only [hgather]
      rfl

/-- The template that the dialogue goes on with: the first line that names one, if none is chosen. -/
def chosen? (r : Registry) (a : Answers) (lines : List String) : Option String :=
  a.template?.or (lines.find? r.contains)

/-- Where a template is chosen already, its inputs and cases are all that is asked for. -/
lemma exists_hears_of_chosen (htemplate : a.template? = some name) (lines : List String)
    {g : Agenda} (hg : g = .of r a (some name)) :
    ∃ h, Hears g.all lines h (complete r a (lines.map some)).rest ∧
      (complete r a (lines.map some)).result = h.verdict.map (g.fill a (some name)) := by
  have hchoice : g.choice = [] := by simp [hg, Agenda.of, htemplate]
  obtain ⟨h, output, hasked, hfor⟩ := exists_asked_of_completeFor r name a lines hg
  simp only [complete, htemplate, hfor]
  refine ⟨h, ?_, congrArg (h.verdict.map ·) (funext fun given => ?_)⟩
  · rw [Agenda.all, hchoice, List.nil_append]
    exact hasked.hears
  · simp only [Agenda.fill, hchoice, List.nil_append, List.length_nil, List.drop_zero]

/-- Where none is chosen, the first line that names a template comes before all other answers. -/
lemma exists_hears_of_unchosen (htemplate : a.template? = none) (lines : List String)
    {g : Agenda} (hg : g = .of r a (lines.find? r.contains)) :
    ∃ h, Hears g.all lines h (complete r a (lines.map some)).rest ∧
      (complete r a (lines.map some)).result =
        h.verdict.map (g.fill a (lines.find? r.contains)) := by
  have hchoice : g.choice = [templateQuestion r] := by simp [hg, Agenda.of, htemplate]
  simp only [complete, htemplate, chooseTemplate]
  rcases first_acceptable (templateQuestion r) lines with
    hno | ⟨skipped, name, rest, rfl, hskip, hname⟩
  · obtain ⟨output, hask⟩ := ask_ended hno
    simp only [hask]
    refine ⟨⟨[], some (templateQuestion r), []⟩, ?_, rfl⟩
    rw [Agenda.all, hchoice]
    exact (Asked.ended hno).hears
  · have hfind : (skipped ++ name :: rest).find? r.contains = some name :=
      List.find?_eq_some_iff_append.mpr ⟨hname, skipped, rest, rfl, fun line hline => by
        simpa using (show ¬r.contains line from hskip line hline)⟩
    rw [hfind] at hg ⊢
    obtain ⟨output, hask⟩ := ask_answered hskip hname rest
    obtain ⟨h, output', hasked, hfor⟩ := exists_asked_of_completeFor r name a rest hg
    simp only [hask, hfor]
    refine ⟨⟨name :: h.answers, h.missing?, h.unread⟩, ?_, ?_⟩
    · rw [Agenda.all, hchoice]
      exact (Asked.answered hskip hname hasked).hears
    · rcases h with ⟨given, _ | q, unread⟩
      · simp [Hearing.verdict, Except.map, Agenda.fill, hchoice]
      · rfl

lemma exists_hears_of_complete (r : Registry) (a : Answers) (lines : List String) {g : Agenda}
    (hg : g = .of r a (chosen? r a lines)) :
    ∃ h, Hears g.all lines h (complete r a (lines.map some)).rest ∧
      (complete r a (lines.map some)).result =
        h.verdict.map (g.fill a (chosen? r a lines)) := by
  cases htemplate : a.template? with
  | some name =>
    have hchosen : chosen? r a lines = some name := by rw [chosen?, htemplate, Option.some_or]
    rw [hchosen] at hg ⊢
    exact exists_hears_of_chosen htemplate lines hg
  | none =>
    have hchosen : chosen? r a lines = lines.find? r.contains := by
      rw [chosen?, htemplate, Option.none_or]
    rw [hchosen] at hg ⊢
    exact exists_hears_of_unchosen htemplate lines hg

/-- **The dialogue answers each question with the first acceptable line.** The lines of the input
are gone through once: the choice of a template, the inputs and the cases each put the questions
that are open, one after the other, and stop at the first one without an answer. What was answered
until then is kept, and the lines after the last answer are left. -/
theorem hears_first_acceptable (r : Registry) (t : Template) (a : Answers) (known : Bindings)
    (text : String) :
    let lines := textLines text
    let input := linesOf text.toUTF8
    (∃ h, Hears [templateQuestion r] lines h (chooseTemplate r input).rest ∧
      (chooseTemplate r input).result.map (fun name => [name]) = h.verdict) ∧
    (∃ h, Hears (unanswered known (inputQuestions t)) lines h (collectInputs t known input).rest ∧
      (collectInputs t known input).result =
        (h.error?, record known (unanswered known (inputQuestions t)) h.answers)) ∧
    (∃ h, Hears (unanswered known (caseQuestions t)) lines h (collectCases t known input).rest ∧
      (collectCases t known input).result =
        (h.error?, record known (unanswered known (caseQuestions t)) h.answers)) ∧
    (∃ h, Hears (Agenda.of r a (chosen? r a lines)).all lines h (complete r a input).rest ∧
      (complete r a input).result =
        h.verdict.map ((Agenda.of r a (chosen? r a lines)).fill a (chosen? r a lines))) := by
  simp only [linesOf_toUTF8]
  exact ⟨exists_hears_of_ask (templateQuestion r) (textLines text),
    exists_hears_of_gather known (inputQuestions t) (textLines text),
    exists_hears_of_gather known (caseQuestions t) (textLines text),
    exists_hears_of_complete r a (textLines text) rfl⟩

end Stencil.Dialogue

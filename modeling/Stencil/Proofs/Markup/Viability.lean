import Stencil.Proofs.Markup.ErrorPlaces

/-!
What a document can begin with.

An outline is what the grammar leaves if the name of a closing tag may be any name. Tokens are
viable if they can be continued to the outline of a document. A reader takes every token up to the
first one after which the tokens are no longer viable, and what it expects there is the punctuation
that would keep them viable. On the way it stops only at the end of an element that is closed under
another name, and that is the first one of its kind.
-/

namespace Stencil.Markup

/-! ### Outlines -/

/-- The tokens of an element between two tags of these names. -/
def pairedTokens (opening : String) (pairs : List (String × String)) (content : List Token)
    (closing : String) : List Token :=
  .tagOpen :: .name opening :: pairTokens pairs ++ .tagClose :: content ++
    [.closeTagOpen, .name closing, .tagClose]

/-- The tokens are so many elements one after the other, where a closing tag may have any name. -/
inductive Outlines : Nat → List Token → Prop
  | nil : Outlines 0 []
  | closed {n : Nat} {tag : String} {pairs : List (String × String)} {us : List Token}
    (hrest : Outlines n us) :
    Outlines (n + 1) (.tagOpen :: .name tag :: pairTokens pairs ++ .selfClose :: us)
  | paired {m n : Nat} {opening closing : String} {pairs : List (String × String)}
    {content us : List Token} (hcontent : Outlines m content) (hrest : Outlines n us) :
    Outlines (n + 1) (pairedTokens opening pairs content closing ++ us)

/-- The tokens are a document, whatever the names of its closing tags. -/
def Complete (us : List Token) : Prop := Outlines 1 us

/-- The tokens can be continued to a document, whatever the names of its closing tags. -/
def Viable (us : List Token) : Prop := ∃ vs, Complete (us ++ vs)

/-- The tokens end with an element that is opened and closed under these names. -/
inductive Closes (opening closing : String) : List Token → Prop
  | mk {n : Nat} {before content : List Token} (pairs : List (String × String))
    (hcontent : Outlines n content) :
    Closes opening closing (before ++ pairedTokens opening pairs content closing)

/-- Every element that is closed among the tokens is closed under its own name. -/
def Paired (us : List Token) : Prop :=
  ∀ vs opening closing, vs <+: us → Closes opening closing vs → closing = opening

def Token.IsPunctuation : Token → Prop
  | .name _ | .string _ => False
  | _ => True

/-- After the tokens there could be this punctuation, or the end of the input. -/
def Expected.Fits (us : List Token) : Expected → Prop
  | .token t => t.IsPunctuation ∧ Viable (us ++ [t])
  | .endOfInput => Complete us

/-- What is wrong with the tokens, at the first place where they cannot be right. -/
inductive Explains (ts : List (Located Token)) : SyntaxError → Prop
  /-- With the token, those before it can no longer be continued. -/
  | unexpected {us vs : List (Located Token)} {t : Located Token} {expected : List Expected}
    (htokens : ts = us ++ t :: vs) (hviable : Viable (values us))
    (hnot : ¬ Viable (values us ++ [t.value])) (hpaired : Paired (values us))
    (hexpected : ∀ x, x ∈ expected ↔ x.Fits (values us)) :
    Explains ts ⟨.unexpected (some t.value), t.span, expected⟩
  /-- The tokens are only the beginning of a document. -/
  | early {place : Span} {expected : List Expected} (hviable : Viable (values ts))
    (hnot : ¬ Complete (values ts)) (hpaired : Paired (values ts))
    (hexpected : ∀ x, x ∈ expected ↔ x.Fits (values ts)) :
    Explains ts ⟨.unexpected none, place, expected⟩
  /-- The element from one token to the other is the first one that is closed under another name. -/
  | mismatch {us body vs : List (Located Token)} {first last : Located Token} {n : Nat}
    {opening closing : String} {pairs : List (String × String)} {content : List Token}
    (htokens : ts = us ++ (first :: body ++ [last]) ++ vs)
    (helement : values (first :: body ++ [last]) = pairedTokens opening pairs content closing)
    (hcontent : Outlines n content) (hname : closing ≠ opening)
    (hpaired : Paired (values (us ++ first :: body)))
    (hviable : Viable (values (us ++ (first :: body ++ [last])))) :
    Explains ts ⟨.mismatch closing opening, ⟨first.span.start, last.span.stop⟩, []⟩

lemma Writes.outlines {ts : List Tree} {us : List Token} (h : Writes ts us) :
    Outlines ts.length us := by
  induction h with
  | nil => exact .nil
  | closed _ ih => exact .closed ih
  | paired _ _ ihc ih => simpa [pairedTokens] using Outlines.paired ihc ih

lemma Form.complete {root : Element} {us : List (Located Token)} (h : Form [root] us) :
    Complete (values us) := by
  simpa [Complete, Element.trees] using h.writes.outlines

lemma Outlines.append {m n : Nat} {us vs : List Token} (h : Outlines m us) (h' : Outlines n vs) :
    Outlines (m + n) (us ++ vs) := by
  induction h with
  | nil => simpa using h'
  | closed _ ih => simpa [Nat.add_right_comm] using Outlines.closed ih
  | paired hcontent _ _ ih => simpa [Nat.add_right_comm] using Outlines.paired hcontent ih

lemma complete_pairedTokens {n : Nat} {content : List Token} (h : Outlines n content)
    (opening : String) (pairs : List (String × String)) (closing : String) :
    Complete (pairedTokens opening pairs content closing) := by
  have hwhole : Outlines 1 (pairedTokens opening pairs content closing ++ []) := .paired h .nil
  rwa [List.append_nil] at hwhole

lemma Viable.of_append {us : List Token} (vs : List Token) (h : Viable (us ++ vs)) :
    Viable us := by
  obtain ⟨ws, hws⟩ := h
  exact ⟨vs ++ ws, by rwa [← List.append_assoc]⟩

/-! ### Everything a reader reads is viable -/

/-- What has been read of an open element, with more children after it, is a whole element if it is
closed under any name. -/
lemma OpenElement.Reads.exists_paired {e : OpenElement} {us : List (Located Token)}
    (h : e.Reads us) {m : Nat} {ws : List Token} (hws : Outlines m ws) :
    ∃ n pairs content, Outlines n content ∧ ∀ closing,
      values us ++ ws ++ [.closeTagOpen, .name closing, .tagClose] =
        pairedTokens e.name.value pairs content closing := by
  obtain ⟨tag, greater, cs, ⟨less, as, -, has, rfl⟩, hcs, rfl⟩ := h
  have hcontent := hcs.writes.outlines.append hws
  refine ⟨_, e.attributes.reverse.map Element.pair, _, hcontent, fun closing => ?_⟩
  simp [pairedTokens, nameToken, has.values_eq]

/-- A whole element where it can stand is viable: those around it can still be closed. -/
lemma Leads.viable {around : List OpenElement} {us : List (Located Token)} (h : Leads around us)
    {ws : List Token} (hws : Complete ws) : Viable (values us ++ ws) := by
  induction h generalizing ws with
  | nil => exact ⟨[], by simpa using hws⟩
  | @cons e around us vs _ hreads ih =>
    obtain ⟨n, pairs, content, hcontent, heq⟩ := hreads.exists_paired hws
    have hwhole := ih (complete_pairedTokens hcontent e.name.value pairs e.name.value)
    rw [← heq] at hwhole
    refine Viable.of_append [.closeTagOpen, .name e.name.value, .tagClose] ?_
    simpa using hwhole

/-- A start tag where an element can stand is viable: it can be ended. -/
lemma Leads.viable_tag {around : List OpenElement} {us : List (Located Token)}
    (h : Leads around us) (tag : String) (pairs : List (String × String)) :
    Viable (values us ++ (.tagOpen :: .name tag :: pairTokens pairs)) := by
  have hclosed : Complete (.tagOpen :: .name tag :: pairTokens pairs ++ [.selfClose]) :=
    .closed .nil
  have hwhole := h.viable hclosed
  rw [← List.append_assoc] at hwhole
  exact hwhole.of_append _

lemma OpenElement.ReadsTag.exists_pairs {e : OpenElement} {us : List (Located Token)}
    (h : e.ReadsTag us) :
    ∃ pairs, values us = .tagOpen :: .name e.name.value :: pairTokens pairs := by
  obtain ⟨less, as, -, has, rfl⟩ := h
  exact ⟨e.attributes.reverse.map Element.pair, by simp [nameToken, has.values_eq]⟩

namespace Reader

variable {r r' : Reader} {us vs : List (Located Token)} {t : Located Token}

/-- The innermost of the open elements can be closed. -/
lemma viable_closed {e : OpenElement} {around : List OpenElement} (h : Leads (e :: around) us)
    (closing : String) : Viable (values us ++ [.closeTagOpen, .name closing, .tagClose]) := by
  cases h with
  | cons haround hreads =>
    obtain ⟨n, pairs, content, hcontent, heq⟩ := hreads.exists_paired .nil
    have hwhole := haround.viable (complete_pairedTokens hcontent e.name.value pairs closing)
    rw [← heq] at hwhole
    simpa using hwhole

/-- **What a reader has read is viable.** -/
lemma HasRead.viable (h : r.HasRead us) : Viable (values us) := by
  cases h with
  | start => exact (Leads.nil.viable_tag "a" []).of_append _
  | opened haround less =>
    refine Viable.of_append [.name "a"] ?_
    simpa [pairTokens] using haround.viable_tag "a" []
  | inTag haround hnone htag =>
    obtain ⟨pairs, hpairs⟩ := htag.exists_pairs
    rw [values_append, hpairs]
    exact haround.viable_tag _ pairs
  | @named _ _ _ e haround hnone htag name =>
    obtain ⟨pairs, hpairs⟩ := htag.exists_pairs
    have hmore := haround.viable_tag e.name.value (pairs ++ [(name.value, "")])
    refine Viable.of_append [.equals, .string ""] ?_
    simpa [hpairs, nameToken, pairTokens] using hmore
  | @assigned _ _ _ e haround hnone htag name equals =>
    obtain ⟨pairs, hpairs⟩ := htag.exists_pairs
    have hmore := haround.viable_tag e.name.value (pairs ++ [(name.value, "")])
    refine Viable.of_append [.string ""] ?_
    simpa [hpairs, nameToken, pairTokens] using hmore
  | inside h => exact (viable_closed h "a").of_append _
  | closing h less =>
    refine Viable.of_append [.name "a", .tagClose] ?_
    simpa using viable_closed h "a"
  | closingNamed h less name =>
    refine Viable.of_append [.tagClose] ?_
    simpa [nameToken] using viable_closed h name.value
  | complete h => exact ⟨[], by simpa using h.complete⟩

/-! ### Everything viable is read -/

/-- The tokens bring a reader to such a one, or to the end of an element that is closed under
another name. -/
def Comes (P : Reader → Prop) (r : Reader) (us : List (Located Token)) : Prop :=
  (∃ r', r.run us = .ok r' ∧ P r') ∨
    ∃ e closing opening, r.run us = .error e ∧ e.fault = .mismatch closing opening

variable {P Q : Reader → Prop}

lemma comes_nil (h : P r) : r.Comes P [] := .inl ⟨r, rfl, h⟩

lemma Step.comes {r₁ : Reader} (h : r.Step t r₁) (hrest : r₁.Comes P us) :
    r.Comes P (t :: us) := by
  unfold Comes
  rwa [h.run_cons]

lemma Comes.append (h : r.Comes P us) (hrest : ∀ r', P r' → r'.Comes Q vs) :
    r.Comes Q (us ++ vs) := by
  obtain ⟨r', hrun, hr'⟩ | ⟨e, closing, opening, hrun, hfault⟩ := h
  · have hsame : r.run (us ++ vs) = r'.run vs := by
      rw [run_append, hrun]
      rfl
    unfold Comes
    rw [hsame]
    exact hrest r' hr'
  · refine .inr ⟨e, closing, opening, ?_, hfault⟩
    rw [run_append, hrun]
    rfl

lemma Comes.mono (h : r.Comes P us) (himp : ∀ r', P r' → Q r') : r.Comes Q us := by
  rw [← List.append_nil us]
  exact h.append fun r' hr' => comes_nil (himp r' hr')

/-- The reader is inside the open element, whatever children it has got. -/
def IsInside (e : OpenElement) (around : List OpenElement) (r : Reader) : Prop :=
  ∃ children, r = ⟨.inside { e with children }, around⟩

/-- The element is one tag, and the reader goes on after it. -/
lemma comes_closed {tag : String} {pairs : List (String × String)}
    (hus : values us = .name tag :: pairTokens pairs ++ [.selfClose]) (start : Nat)
    (around : List OpenElement) :
    Comes (fun r => ∃ e, r = finish around e) ⟨.opened start, around⟩ us := by
  simp only [values_eq_append_iff, values_eq_cons_iff] at hus
  obtain ⟨_, _, rfl, ⟨name, as, rfl, hpairs⟩, close, us, rfl, hnil⟩ := hus
  obtain ⟨attributes, has, rfl⟩ := exists_formAttributes hpairs
  obtain rfl : us = [] := List.map_eq_nil_iff.mp hnil
  have hrun : run ⟨.opened start, around⟩ (nameToken ⟨tag, name⟩ :: (as ++ [⟨.selfClose, close⟩])) =
      .ok (finish around (.mk ⟨tag, name⟩ attributes [] ⟨start, close.stop⟩)) :=
    run_closed has start close around []
  exact .inl ⟨_, hrun, _, rfl⟩

/-- A reader that comes to the end of the content goes on after the element if it is closed under
its own name. -/
lemma comes_paired {opening closing : String} {pairs : List (String × String)}
    {content : List Token}
    (hus : .tagOpen :: values us = pairedTokens opening pairs content closing) (start : Nat)
    (around : List OpenElement)
    (hcontent : ∀ cs, values cs = content → ∀ e, Comes (IsInside e around) ⟨.inside e, around⟩ cs) :
    Comes (fun r => closing = opening ∧ ∃ e, r = finish around e) ⟨.opened start, around⟩ us := by
  have htail : values us = .name opening :: (pairTokens pairs ++ .tagClose :: (content ++
      [.closeTagOpen, .name closing, .tagClose])) := by simpa [pairedTokens] using hus
  simp only [values_eq_append_iff, values_eq_cons_iff] at htail
  obtain ⟨name, _, rfl, as, _, rfl, hpairs, greater, _, rfl, cs, _, rfl, hcs,
    less, _, rfl, name', _, rfl, close, us, rfl, hnil⟩ := htail
  obtain ⟨attributes, has, rfl⟩ := exists_formAttributes hpairs
  obtain rfl : us = [] := List.map_eq_nil_iff.mp hnil
  have htag : run ⟨.opened start, around⟩ (nameToken ⟨opening, name⟩ :: (as ++
      ⟨.tagClose, greater⟩ :: (cs ++ [⟨.closeTagOpen, less⟩, nameToken ⟨closing, name'⟩,
        ⟨.tagClose, close⟩]))) = _ := run_tag has start around _
  unfold Comes
  rw [nameToken, nameToken] at htag
  rw [htag]
  refine (Step.inside _ greater).comes ((hcontent cs hcs _).append ?_)
  rintro _ ⟨children, rfl⟩
  refine (Step.closing _ less).comes ((Step.closingNamed _ ⟨closing, name'⟩).comes ?_)
  by_cases hname : closing = opening
  · exact (Step.paired _ ⟨closing, name'⟩ close hname).comes (comes_nil ⟨hname, _, rfl⟩)
  · refine .inr ⟨⟨.mismatch closing opening, ⟨start, close.stop⟩, []⟩, _, _, ?_, rfl⟩
    rw [run_cons]
    simp only [step, if_neg hname]
    rfl

/-- A reader inside an element reads every outline. -/
lemma comes_inside {n : Nat} {ws : List Token} (h : Outlines n ws) {us : List (Located Token)}
    (hus : values us = ws) (e : OpenElement) (around : List OpenElement) :
    Comes (IsInside e around) ⟨.inside e, around⟩ us := by
  induction h generalizing us e around with
  | nil =>
    obtain rfl : us = [] := List.map_eq_nil_iff.mp hus
    exact comes_nil ⟨e.children, rfl⟩
  | @closed n tag pairs ws _ ih =>
    have hsplit : values us =
        (.tagOpen :: (.name tag :: pairTokens pairs ++ [.selfClose])) ++ ws := by simpa using hus
    obtain ⟨_, us, rfl, htag, hrest⟩ := values_eq_append_iff.mp hsplit
    obtain ⟨less, vs, rfl, hvs⟩ := values_eq_cons_iff.mp htag
    refine (Step.child e less).comes ((comes_closed hvs less.start _).append ?_)
    rintro _ ⟨child, rfl⟩
    exact ih hrest _ around
  | @paired m n opening closing pairs content ws _ _ ihc ih =>
    obtain ⟨_, us, rfl, helement, hrest⟩ := values_eq_append_iff.mp hus
    obtain ⟨less, vs, rfl, hvs⟩ := values_eq_cons_iff.mp helement
    have hwhole := comes_paired helement less.start (e :: around) fun cs hcs o => ihc hcs o _
    refine (Step.child e less).comes (hwhole.append ?_)
    rintro _ ⟨-, child, rfl⟩
    exact ih hrest _ around

/-- **Everything viable is read**: a reader comes to the end of every outline of a document. -/
lemma comes_init (h : Complete (values us)) :
    Comes (fun r => ∃ root, r = ⟨.complete root, []⟩) .init us := by
  unfold Complete at h
  generalize hus : values us = ws at h
  cases h with
  | closed hrest =>
    cases hrest
    obtain ⟨less, vs, rfl, hvs⟩ := values_eq_cons_iff.mp hus
    exact (Step.start less).comes (comes_closed hvs less.start [])
  | paired hcontent hrest =>
    cases hrest
    rw [List.append_nil] at hus
    obtain ⟨less, vs, rfl, hvs⟩ := values_eq_cons_iff.mp hus
    have hwhole := comes_paired hus less.start [] fun cs hcs o => comes_inside hcontent hcs o _
    exact (Step.start less).comes (hwhole.mono fun _ hpast => hpast.2)

/-! ### The first token that cannot be right -/

/-- The reader can go on with the token, or it is the end of an element that is closed under another
name. -/
def Takes (r : Reader) (t : Located Token) : Prop :=
  ∀ e, r.step t = .error e → ∃ closing opening, e.fault = .mismatch closing opening

lemma run_append_error {e : SyntaxError} (hrun : r.run us = .ok r') (hstep : r'.step t = .error e)
    (vs : List (Located Token)) : r.run (us ++ t :: vs) = .error e := by
  rw [run_append, hrun]
  change r'.run (t :: vs) = .error e
  rw [run_cons, hstep]
  rfl

/-- A closing tag under another name is viable, as the names of closing tags do not count. -/
lemma HasRead.viable_mismatch {e : OpenElement} {name : Located String}
    {around : List OpenElement} (h : HasRead ⟨.closingNamed e name, around⟩ us) :
    Viable (values us ++ [.tagClose]) := by
  cases h with
  | closingNamed h less => simpa [nameToken] using viable_closed h name.value

/-- A token keeps what has been read viable if and only if the reader takes it. -/
lemma viable_append_iff (hrun : run .init us = .ok r) (t : Located Token) :
    Viable (values us ++ [t.value]) ↔ r.Takes t := by
  have hread := hasRead_of_run hrun
  constructor
  · rintro ⟨ws, hws⟩ e hstep
    have hvalues : values (us ++ t :: ws.map (⟨·, ⟨0, 0⟩⟩)) = values us ++ [t.value] ++ ws := by
      simp [values_placed]
    rw [← hvalues] at hws
    obtain ⟨r', hok, -⟩ | ⟨e', closing, opening, herror, hfault⟩ := comes_init hws
    · rw [run_append_error hrun hstep] at hok
      cases hok
    · rw [run_append_error hrun hstep] at herror
      obtain rfl := Except.error.inj herror
      exact ⟨closing, opening, hfault⟩
  · intro htakes
    cases hstep : r.step t with
    | ok r' => simpa using (hread.step (step_eq_ok_iff.mp hstep)).viable
    | error e =>
      obtain ⟨closing, opening, hfault⟩ := htakes e hstep
      have hrefuses := refuses_of_step hstep
      cases hrefuses with
      | unexpected => cases hfault
      | mismatch o name close => exact hread.viable_mismatch

/-- A reader has read a whole document if and only if it has come to its end. -/
lemma complete_iff (hrun : run .init us = .ok r) :
    Complete (values us) ↔ ∃ root around, r = ⟨.complete root, around⟩ := by
  constructor
  · intro h
    obtain ⟨r', hok, root, rfl⟩ | ⟨e, _, _, herror, -⟩ := comes_init h
    · rw [hrun] at hok
      exact ⟨root, [], Except.ok.inj hok⟩
    · rw [hrun] at herror
      cases herror
  · rintro ⟨root, around, rfl⟩
    have hread := hasRead_of_run hrun
    cases hread with
    | complete hform => exact hform.complete

/-- The punctuation that is expected is the one that a reader takes. -/
lemma token_mem_expected_iff (r : Reader) (t : Located Token) :
    .token t.value ∈ r.stage.expected ↔ t.value.IsPunctuation ∧ r.Takes t := by
  obtain ⟨stage, around⟩ := r
  obtain ⟨token, place⟩ := t
  unfold Takes
  cases stage <;> cases token
  case closingNamed.tagClose e name =>
    by_cases hname : name.value = e.name.value <;>
      simp [Stage.expected, step, hname, Token.IsPunctuation]
  all_goals simp [Stage.expected, step, Token.IsPunctuation]

/-- **What is expected** is the punctuation that would keep the tokens viable, or the end of the
input where a document ends. -/
lemma mem_expected_iff (hrun : run .init us = .ok r) (x : Expected) :
    x ∈ r.stage.expected ↔ x.Fits (values us) := by
  cases x with
  | token t =>
    have htoken := token_mem_expected_iff r ⟨t, ⟨0, 0⟩⟩
    have hviable := viable_append_iff hrun ⟨t, ⟨0, 0⟩⟩
    exact htoken.trans (and_congr_right fun _ => hviable.symm)
  | endOfInput =>
    have hcomplete := complete_iff hrun
    obtain ⟨stage, around⟩ := r
    cases stage <;> simp_all [Stage.expected, Expected.Fits]

lemma run_append_eq_ok_iff :
    r.run (us ++ vs) = .ok r' ↔ ∃ r₁, r.run us = .ok r₁ ∧ r₁.run vs = .ok r' := by
  rw [run_append]
  exact bind_eq_ok_iff

lemma Step.exists_opened {less : Span} (h : r.Step ⟨.tagOpen, less⟩ r') :
    ∃ around, r' = ⟨.opened less.start, around⟩ := by
  cases h with
  | start => exact ⟨_, rfl⟩
  | child => exact ⟨_, rfl⟩

/-- All elements that are closed in what a reader reads are closed under their own names. -/
lemma paired_of_run (hrun : r.run us = .ok r') : Paired (values us) := by
  rintro _ opening closing ⟨ws, hws⟩ ⟨pairs, hcontent⟩
  obtain ⟨us, _, rfl, hus, -⟩ := values_eq_append_iff.mp hws.symm
  obtain ⟨before, element, rfl, -, helement⟩ := values_eq_append_iff.mp hus
  obtain ⟨less, vs, rfl, hvs⟩ := values_eq_cons_iff.mp helement
  obtain ⟨_, hfirst, -⟩ := run_append_eq_ok_iff.mp hrun
  obtain ⟨r₁, -, hread⟩ := run_append_eq_ok_iff.mp hfirst
  obtain ⟨r₂, hstep, hrest⟩ := run_cons_eq_ok_iff.mp hread
  obtain ⟨around, rfl⟩ := hstep.exists_opened
  have hwhole := comes_paired helement less.start around fun cs hcs o =>
    comes_inside hcontent hcs o around
  obtain ⟨_, -, hname, -⟩ | ⟨e, _, _, herror, -⟩ := hwhole
  · exact hname
  · rw [hrest] at herror
    cases herror

end Reader

lemma OpenElement.Reads.exists_first {e : OpenElement} (h : e.Reads us) :
    ∃ first body, us = first :: body ∧ first.span.start = e.start := by
  obtain ⟨_, greater, cs, ⟨less, as, hstart, -, rfl⟩, -, rfl⟩ := h
  exact ⟨_, _, rfl, hstart.symm⟩

namespace Reader

/-- A token that takes a reader nowhere is the first one that cannot be right. -/
lemma explains_step {e : SyntaxError} (hrun : run .init us = .ok r) (hstep : r.step t = .error e)
    (vs : List (Located Token)) : Explains (us ++ t :: vs) e := by
  have hread := hasRead_of_run hrun
  have hpaired := paired_of_run hrun
  have hrefuses := refuses_of_step hstep
  cases hrefuses with
  | unexpected =>
    refine .unexpected rfl hread.viable (fun h => ?_) hpaired (mem_expected_iff hrun)
    obtain ⟨_, _, hfault⟩ := (viable_append_iff hrun t).mp h _ hstep
    cases hfault
  | mismatch o name close =>
    have hname : name.value ≠ o.name.value := by
      intro hname
      rw [step_eq_ok_iff.mpr (Step.paired o name close hname)] at hstep
      cases hstep
    have hviable := hread.viable_mismatch
    cases hread with
    | closingNamed h less _ =>
      cases h with
      | @cons _ _ us vs' haround hreads =>
        obtain ⟨n, pairs, content, hcontent, heq⟩ := hreads.exists_paired .nil
        obtain ⟨first, body, rfl, hstart⟩ := hreads.exists_first
        have hsplit : us ++ first :: body ++ [⟨.closeTagOpen, less⟩, nameToken name] ++
              ⟨.tagClose, close⟩ :: vs =
            us ++ (first :: (body ++ [⟨.closeTagOpen, less⟩, nameToken name]) ++
              [⟨.tagClose, close⟩]) ++ vs := by simp
        have helement : values (first :: (body ++ [⟨.closeTagOpen, less⟩, nameToken name]) ++
            [⟨.tagClose, close⟩]) = pairedTokens o.name.value pairs content name.value := by
          simpa [nameToken] using heq name.value
        rw [hsplit, ← hstart]
        refine .mismatch rfl helement hcontent hname ?_ ?_
        · simpa using hpaired
        · simpa using hviable

end Reader

/-- What can be read is complete, and all its elements are closed under their own names. -/
theorem exists_writes_iff {ws : List Token} : (∃ t, Writes [t] ws) ↔ Complete ws ∧ Paired ws := by
  have hws := values_placed ws ⟨0, 0⟩
  constructor
  · rintro ⟨t, ht⟩
    obtain ⟨root, hform, -⟩ := ht.exists_root hws
    have hpaired := Reader.paired_of_run (Reader.run_init hform)
    rw [hws] at hpaired
    exact ⟨ht.outlines, hpaired⟩
  · rintro ⟨hcomplete, hpaired⟩
    rw [← hws] at hcomplete
    obtain ⟨_, hrun, root, rfl⟩ | ⟨e, _, _, hrun, hfault⟩ := Reader.comes_init hcomplete
    · have hread := Reader.hasRead_of_run hrun
      cases hread with
      | complete hform =>
        have hwrites := hform.writes
        rw [hws] at hwrites
        exact ⟨_, hwrites⟩
    · obtain ⟨us, t, vs, r, htokens, hread, hstep⟩ := Reader.exists_step_of_run hrun
      have hexplains := Reader.explains_step hread hstep vs
      rw [← htokens] at hexplains
      cases hexplains with
      | @mismatch us body vs first last n opening closing pairs content htokens helement hcontent
          hname =>
        have hprefix : values us ++ pairedTokens opening pairs content closing <+: ws := by
          rw [← hws, htokens, ← helement, ← values_append, values_append _ vs]
          exact List.prefix_append _ _
        exact absurd (hpaired _ opening closing hprefix ⟨pairs, hcontent⟩) hname
      | _ => cases hfault

namespace Document

/-- **Syntax errors are reported at the first token that cannot be right.** The tokens before it can
be continued to a document if the names of closing tags do not count, and with it they cannot; or
all tokens are the beginning of a document and no more. What is expected there is exactly the
punctuation, or the end of the input, that would be right, and all elements closed so far are closed
under their own names. Otherwise the error is about the first element that is not, and has its
names and its place. -/
theorem parse_error_explained {source : String} {e : SyntaxError} (h : parse source = .error e) :
    Explains (tokens source) e := by
  unfold parse ofTokens at h
  split at h
  · next e' hrun =>
    obtain rfl := Except.error.inj h
    obtain ⟨us, t, vs, r, htokens, hread, hstep⟩ := Reader.exists_step_of_run hrun
    rw [htokens]
    exact Reader.explains_step hread hstep vs
  · cases h
  · next stage around hnot hrun =>
    obtain rfl := Except.error.inj h
    have hread := Reader.hasRead_of_run hrun
    refine .early hread.viable (fun hcomplete => ?_) (Reader.paired_of_run hrun)
      (Reader.mem_expected_iff hrun)
    obtain ⟨root, around', heq⟩ := (Reader.complete_iff hrun).mp hcomplete
    obtain ⟨rfl, rfl⟩ := Reader.mk.inj heq
    exact hnot root rfl

/-- A `>` after the name of an attribute is the first token that cannot be right, and a `=` could
stand in its place. The closing tag of another name behind it is not reached. -/
theorem parse_error_bare : ∃ e, parse "<a>1<b c></d></a>" = .error e ∧
    e = ⟨.unexpected (some .tagClose), ⟨8, 9⟩, [.token .equals]⟩ ∧
    Explains (tokens "<a>1<b c></d></a>") e := by
  have hparse : (parse "<a>1<b c></d></a>").map (fun _ => ()) =
      .error ⟨.unexpected (some .tagClose), ⟨8, 9⟩, [.token .equals]⟩ := by decide +kernel
  have herror := eq_error_of_map hparse
  exact ⟨_, herror, rfl, parse_error_explained herror⟩

end Document

end Stencil.Markup

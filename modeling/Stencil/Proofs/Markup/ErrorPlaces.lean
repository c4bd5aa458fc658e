import Stencil.Proofs.Markup.Reading
import Stencil.Proofs.Markup.Spans
import Stencil.Report.Config

/-!
Where syntax errors are reported.

An element that is open starts before every token that is still to be read. So the place of an error
at a token, be it the token or the whole of an element that ends with it, is not empty and lies in
the text. The place of an error at the end of a text starts where the text ends and stops where its
last token does: it runs backwards if anything follows the last token, and then there is no report.
-/

namespace Stencil.Markup

/-! ### Where open elements start -/

namespace Reader

/-- Where the open elements start, the innermost first. -/
def starts (r : Reader) : List Nat :=
  (match r.stage with
    | .start | .complete _ => []
    | .opened start => [start]
    | .inTag e | .named e _ | .assigned e _ | .inside e | .closing e | .closingNamed e _ =>
      [e.start]) ++ r.around.map (·.start)

variable {r r' : Reader} {t : Located Token} {e : SyntaxError} {ts : List (Located Token)}

lemma starts_finish (around : List OpenElement) (e : Element) :
    (finish around e).starts = around.map (·.start) := by
  cases around <;> rfl

/-- An element that is open has been opened by the token, or was open before. -/
lemma Step.mem_starts (h : r.Step t r') {start : Nat} (hstart : start ∈ r'.starts) :
    start = t.span.start ∨ start ∈ r.starts := by
  cases h with
  | start less => simpa [starts] using hstart
  | child e less => simpa [starts] using hstart
  -- the element is whole now, and only those around it are still open
  | closed e close =>
    rw [starts_finish] at hstart
    exact .inr (List.mem_append_right _ hstart)
  | paired e name close hname =>
    rw [starts_finish] at hstart
    exact .inr (List.mem_append_right _ hstart)
  | _ => exact .inr hstart

/-- All open elements start before the place. -/
def StartsBefore (r : Reader) (place : Nat) : Prop := ∀ start ∈ r.starts, start ≤ place

lemma StartsBefore.mono {place place' : Nat} (h : r.StartsBefore place) (hle : place ≤ place') :
    r.StartsBefore place' := fun start hstart => Nat.le_trans (h start hstart) hle

lemma StartsBefore.step (h : r.StartsBefore t.span.start) (hstep : r.Step t r') :
    r'.StartsBefore t.span.start := by
  intro start hstart
  rcases hstep.mem_starts hstart with rfl | hstart
  · exact Nat.le_refl _
  · exact h start hstart

/-- **Open elements start before all that is still to be read**, along a run. -/
theorem StartsBefore.run {start stop : Nat} (h : r.StartsBefore start) (hts : Laid start stop ts)
    (hrun : r.run ts = .ok r') : r'.StartsBefore stop := by
  -- the place moves on with the tokens, to the end of each after its step
  induction hts generalizing r with
  | nil hle =>
    obtain rfl := Except.ok.inj hrun
    exact h.mono hle
  | cons hstart hstop hts ih =>
    obtain ⟨r₁, hstep, hrest⟩ := run_cons_eq_ok_iff.mp hrun
    exact ih (((h.mono hstart).step hstep).mono (Nat.le_of_lt hstop)) hrest

/-! ### Tokens that cannot be right -/

/-- What is wrong with a token that takes a reader nowhere. -/
inductive Refuses : Reader → Located Token → SyntaxError → Prop
  | unexpected {r : Reader} {t : Located Token} :
    Refuses r t ⟨.unexpected (some t.value), t.span, r.stage.expected⟩
  | mismatch {around : List OpenElement} (e : OpenElement) (name : Located String) (close : Span) :
    Refuses ⟨.closingNamed e name, around⟩ ⟨.tagClose, close⟩
      ⟨.mismatch name.value e.name.value, ⟨e.start, close.stop⟩, []⟩

lemma refuses_of_step (h : r.step t = .error e) : r.Refuses t e := by
  obtain ⟨stage, around⟩ := r
  obtain ⟨token, place⟩ := t
  cases stage <;> cases token <;> simp only [step, reduceCtorEq, Except.error.injEq] at h
  case closingNamed.tagClose o name =>
    split at h
    · cases h
    · obtain rfl := Except.error.inj h
      exact .mismatch o name place
  all_goals
    subst h
    exact .unexpected

/-- The place of what is wrong ends with the token, and starts with it or with an open element. -/
lemma Refuses.place (h : r.Refuses t e) (hr : r.StartsBefore t.span.start) :
    e.fault ≠ .unexpected none ∧ e.span.start ≤ t.span.start ∧ e.span.stop = t.span.stop := by
  cases h with
  | unexpected => exact ⟨by simp, Nat.le_refl _, rfl⟩
  | mismatch o name close => exact ⟨by simp, hr o.start (by simp [starts]), rfl⟩

/-- A run fails at the first token that takes the reader nowhere. -/
lemma exists_step_of_run (h : r.run ts = .error e) :
    ∃ us t vs r', ts = us ++ t :: vs ∧ r.run us = .ok r' ∧ r'.step t = .error e := by
  induction ts generalizing r with
  | nil => cases h
  | cons t ts ih =>
    rw [run_cons] at h
    cases hstep : r.step t with
    | error e' =>
      rw [hstep] at h
      obtain rfl := Except.error.inj h
      exact ⟨[], t, ts, r, rfl, rfl, hstep⟩
    | ok r₁ =>
      rw [hstep] at h
      obtain ⟨us, u, vs, r', rfl, hrun, hfails⟩ := ih h
      exact ⟨t :: us, u, vs, r', rfl, by rw [run_cons, hstep]; exact hrun, hfails⟩

/-- The place of an error at a token is not empty, and lies where the tokens do. -/
lemma place_of_run {stop : Nat} (hts : Laid 0 stop ts) (h : run .init ts = .error e) :
    e.fault ≠ .unexpected none ∧ e.span.start < e.span.stop ∧ e.span.stop ≤ stop := by
  obtain ⟨us, t, vs, r, rfl, hrun, hstep⟩ := exists_step_of_run h
  obtain ⟨middle, hus, hvs⟩ := Laid.append_iff.mp hts
  cases hvs with
  | cons hstart hstop hvs =>
    have hinit : init.StartsBefore 0 := fun start hstart => absurd hstart List.not_mem_nil
    have hbefore := (hinit.run hus hrun).mono hstart
    obtain ⟨hfault, hfirst, hlast⟩ := (refuses_of_step hstep).place hbefore
    rw [hlast]
    exact ⟨hfault, Nat.lt_of_le_of_lt hfirst hstop, hvs.le⟩

end Reader

/-! ### Documents -/

lemma lastStop_le {stop : Nat} {ts : List (Located Token)} (h : Laid 0 stop ts) :
    lastStop stop ts ≤ stop := by
  unfold lastStop
  cases hlast : ts.getLast? with
  | none => exact Nat.le_refl _
  | some t => exact (h.of_mem (List.mem_of_getLast? hlast)).2.2

/-- Nothing follows the last token of the text. -/
def EndsInToken (source : String) : Prop :=
  ∀ t ∈ (tokens source).getLast?, t.span.stop = byteSize source.toList

lemma endsInToken_iff {source : String} :
    EndsInToken source ↔
      byteSize source.toList ≤ lastStop (byteSize source.toList) (tokens source) := by
  have hle := lastStop_le (laid_tokens source)
  unfold EndsInToken lastStop at *
  cases hlast : (tokens source).getLast? with
  | none => simp
  | some t =>
    rw [hlast] at hle
    simp at hle ⊢
    omega

lemma SyntaxError.render?_isSome_iff {e : SyntaxError} {file source : String} :
    (e.report.render? file source).isSome ↔ e.span.start ≤ e.span.stop := by
  have hplace : e.report.place = e.span := rfl
  unfold Report.render?
  rw [hplace]
  split
  · next h => simp [h]
  · next h => simp [h]

namespace Document

/-- A text that cannot be read has a token that cannot be right, or it ends too early. -/
lemma place_of_ofTokens {length : Nat} {ts : List (Located Token)} (hts : Laid 0 length ts)
    {e : SyntaxError} (h : ofTokens length ts = .error e) :
    (e.fault ≠ .unexpected none ∧ e.span.start < e.span.stop ∧ e.span.stop ≤ length) ∨
    (e.fault = .unexpected none ∧ e.span = ⟨length, lastStop length ts⟩) := by
  unfold ofTokens at h
  split at h
  · next e' hrun =>
    obtain rfl := Except.error.inj h
    exact .inl (Reader.place_of_run hts hrun)
  · cases h
  · obtain rfl := Except.error.inj h
    exact .inr ⟨rfl, rfl⟩

/-- **Where syntax errors are reported.** The place of an error ends in the text. That of an error
at a token is not empty. That of an error at the end of the text starts there and stops where the
last token does, so that it runs backwards, and there is no report, if anything follows it. -/
theorem parse_error_place {source : String} {e : SyntaxError} (h : parse source = .error e) :
    e.span.stop ≤ byteSize source.toList ∧
    (e.fault ≠ .unexpected none → e.span.start < e.span.stop) ∧
    (e.fault = .unexpected none →
      e.span = ⟨byteSize source.toList, lastStop (byteSize source.toList) (tokens source)⟩) ∧
    (e.span.start ≤ e.span.stop ↔ (e.fault = .unexpected none → EndsInToken source)) ∧
    ∀ file, (e.report.render? file source).isSome ↔ e.span.start ≤ e.span.stop := by
  have hlaid := laid_tokens source
  obtain ⟨hfault, hlt, hle⟩ | ⟨hfault, hspan⟩ := place_of_ofTokens hlaid h
  · refine ⟨hle, fun _ => hlt, fun hnone => absurd hnone hfault, ?_, fun file =>
      SyntaxError.render?_isSome_iff⟩
    exact iff_of_true (Nat.le_of_lt hlt) fun hnone => absurd hnone hfault
  · have hstop : e.span.stop ≤ byteSize source.toList := by
      rw [hspan]
      exact lastStop_le hlaid
    refine ⟨hstop, fun hnot => absurd hfault hnot, fun _ => hspan, ?_, fun file =>
      SyntaxError.render?_isSome_iff⟩
    rw [endsInToken_iff, hspan, forall_prop_of_true hfault]

/-- The place of an element that is closed under another name is that of the whole element. -/
theorem parse_mismatch_place : ∃ e, parse "<a></b>" = .error e ∧ e.fault = .mismatch "b" "a" ∧
    e.span.start < e.span.stop ∧ e.span.stop ≤ byteSize "<a></b>".toList ∧
    ∀ file, (e.report.render? file "<a></b>").isSome := by
  have hparse : (parse "<a></b>").map (fun _ => ()) = .error ⟨.mismatch "b" "a", ⟨0, 7⟩, []⟩ := by
    decide +kernel
  have herror := eq_error_of_map hparse
  obtain ⟨hstop, hplace, -, -, hreport⟩ := parse_error_place herror
  have hforward := hplace (by decide)
  exact ⟨_, herror, rfl, hforward, hstop, fun file => (hreport file).mpr (Nat.le_of_lt hforward)⟩

/-- Places do not always run forwards: it is enough that a blank follows the last token of a text
that ends too early. -/
theorem not_all_places_forward : ¬ ∀ (source : String) (e : SyntaxError),
    parse source = .error e → e.span.start ≤ e.span.stop ∧ e.span.stop ≤ byteSize source.toList ∧
      ∀ file, (e.report.render? file source).isSome := by
  have hparse : (parse "<a ").map (fun _ => ()) =
      .error ⟨.unexpected none, ⟨3, 2⟩, [.token .selfClose, .token .tagClose]⟩ := by
    decide +kernel
  intro h
  have hforward := (h "<a " _ (eq_error_of_map hparse)).1
  exact absurd hforward (by decide)

end Document

end Stencil.Markup

import Stencil.Proofs.Resolution.Solution
import Stencil.Proofs.Text.Replacing

/-!
Keys that escape a character.

A key of this kind fills in its format and puts a backslash before each occurrence of one character.
Nothing is lost by this, whichever character it is: what was filled in can be read off the value.
-/

namespace Stencil

/-! ### What is computed -/

namespace Key

variable {ids : IdSource} {ask : String → Progress → Attempt String} {k : Key} {p q : Progress}
  {value : String}

lemma ofKey_escape_eq_ok_iff {mark : Char} (hmark : k.attr? "char" = some (String.singleton mark))
    {rule : Rule} : Rule.ofKey .escape k = .ok rule ↔ ∃ format, k.attr? "format" = some format ∧
      rule = .formatted format (.escape (String.singleton mark)) := by
  simp only [Rule.ofKey, bind_eq_ok_iff, need_eq_ok_iff, hmark, pure, Except.pure,
    Except.ok.injEq, Option.some.injEq, exists_eq_left']
  constructor <;> rintro ⟨format, hformat, rfl⟩ <;> exact ⟨format, hformat, rfl⟩

/-- A key that escapes a character has a value as soon as its format is filled in. -/
lemma compute_escape_iff {mark : Char} (hmark : k.attr? "char" = some (String.singleton mark)) :
    k.compute ids ask .escape p = (.ok value, q) ↔
      ∃ format text p', k.attr? "format" = some format ∧
        interpolateWith ask format p = (.ok text, p') ∧
        value = Text.escape mark text ∧ q = p'.enter k.name value := by
  have happly (text : String) : (Transform.escape (String.singleton mark)).apply text =
      Text.escape mark text := Text.replace_eq_escape mark text
  rw [compute_eq_ok_iff]
  constructor
  · rintro ⟨rule, p', hrule, heval, rfl⟩
    obtain ⟨format, hformat, rfl⟩ := (ofKey_escape_eq_ok_iff hmark).mp hrule
    obtain ⟨text, htext, rfl⟩ := Rule.eval_formatted_eq_ok_iff.mp heval
    exact ⟨format, text, p', hformat, htext, happly text, rfl⟩
  · rintro ⟨format, text, p', hformat, htext, rfl, rfl⟩
    refine ⟨_, p', (ofKey_escape_eq_ok_iff hmark).mpr ⟨format, hformat, rfl⟩, ?_, rfl⟩
    exact Rule.eval_formatted_eq_ok_iff.mpr ⟨text, htext, (happly text).symm⟩

end Key

/-! ### What is in the table -/

namespace Session

variable {ids : IdSource} {s s' : Session} {kind : KeyKind} {k : Key} {value : String}

/-- A key that is handled without having a value gets the one that it asks for, on the table that is
reached. -/
lemma hasValue_of_evaluate (hnew : k.name ∉ s.values)
    (h : s.evaluate ids kind k = (.ok value, s')) : k.HasValue ids s'.values value kind := by
  have hvalue := value_of_evaluate h
  simp only [evaluate, getElem?_eq_none_iff.mpr hnew] at h
  obtain ⟨hresult, rfl⟩ := Prod.mk.inj h
  have hcompute : k.compute ids (s.template.demand ids s.overridden [k.name]) kind s.progress =
      (.ok value, _) := Prod.ext hresult rfl
  have hrun := (Template.demand_asks s.template ids s.overridden [k.name]).run_compute hnew
    (by simp [Template.Applies]) hcompute
  obtain ⟨rule, hrule, hgives⟩ := hrun.gives hnew hvalue
  -- the rule that the template has for the name does not apply, since the name waits
  rcases hrule with ⟨-, hwaits⟩ | ⟨-, hrule⟩
  · exact absurd (List.mem_singleton_self _) hwaits
  · exact hgives.hasValue hrule

end Session

/-- **Escaping is reversible.** The value of a key that escapes a character is what its format is
filled in to, with a backslash before each occurrence of the character. It is there as soon as the
format is filled in, and the text is the one that the table gives. Taking the backslashes away again
gives the text back, so that no two texts get the same value. -/
theorem Key.escape_reversible {k : Key} {mark : Char}
    (hmark : k.attr? "char" = some (String.singleton mark)) :
    (∀ (ids : IdSource) (ask : String → Progress → Attempt String) (p q : Progress)
        (value : String), k.compute ids ask .escape p = (.ok value, q) ↔
      ∃ format text p', k.attr? "format" = some format ∧
        interpolateWith ask format p = (.ok text, p') ∧
        value = Text.escape mark text ∧ q = p'.enter k.name value) ∧
    (∀ (ids : IdSource) (s s' : Session) (value : String), k.name ∉ s.values →
      s.evaluate ids .escape k = (.ok value, s') → s'.values[k.name]? = some value ∧
        ∃ text, k.FillsIn s'.values text ∧ value = Text.escape mark text) ∧
    (∀ text, Text.replace ("\\" ++ String.singleton mark) (String.singleton mark)
      (Text.escape mark text) = text) ∧
    Function.Injective (Text.escape mark) := by
  refine ⟨fun ids ask p q value => compute_escape_iff hmark, fun ids s s' value hnew h => ?_,
    Text.replace_escape mark, Text.escape_injective mark⟩
  obtain ⟨text, written, hfill, hwritten, rfl⟩ := Session.hasValue_of_evaluate hnew h
  obtain rfl := Option.some.inj (hmark.symm.trans hwritten)
  exact ⟨Session.value_of_evaluate h, text, hfill, Text.replace_eq_escape mark text⟩

/-- A path with its backslashes escaped, one of which the format puts next to that of the path. -/
def Key.quotedPath : Key where
  name := "quoted"
  typeTag := "escape"
  attributes := Std.ExtTreeMap.ofList [("format", "$(path)\\*"), ("char", "\\")]

/-- A session in which the path is known. -/
def Session.withPath : Session :=
  (start ⟨"t", "", [.quotedPath, ⟨"path", "input", ∅⟩], [], []⟩).absorbInputs
    (Std.ExtTreeMap.ofList [("path", "C:\\tmp\\")])

theorem quotedPath_reversible : Key.quotedPath.attr? "char" = some (String.singleton '\\') ∧
    "quoted" ∉ Session.withPath.values ∧
    ∃ s, Session.withPath.evaluate (fun _ name => name) .escape .quotedPath =
      (.ok "C:\\\\tmp\\\\\\\\*", s) ∧
    (∃ text, Key.quotedPath.FillsIn s.values text ∧
      "C:\\\\tmp\\\\\\\\*" = Text.escape '\\' text) ∧
    Text.replace "\\\\" "\\" (Text.escape '\\' "C:\\tmp\\\\*") = "C:\\tmp\\\\*" := by
  have hmark : Key.quotedPath.attr? "char" = some (String.singleton '\\') := by decide +kernel
  have hnew : "quoted" ∉ Session.withPath.values := by decide +kernel
  have hvalue : (Session.withPath.evaluate (fun _ name => name) .escape .quotedPath).1 =
      .ok "C:\\\\tmp\\\\\\\\*" := by decide +kernel
  have h : Session.withPath.evaluate (fun _ name => name) .escape .quotedPath =
      (.ok "C:\\\\tmp\\\\\\\\*", _) := Prod.ext hvalue rfl
  obtain ⟨-, htable, hundone, -⟩ := Key.escape_reversible hmark
  exact ⟨hmark, hnew, _, h, (htable _ _ _ _ hnew h).2, hundone _⟩

end Stencil

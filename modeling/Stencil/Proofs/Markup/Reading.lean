import Mathlib.Data.Set.Subsingleton
import Stencil.Proofs.Except
import Stencil.Proofs.Markup.Grammar

/-!
Reading documents.

What a reader has read up to any moment is the beginning of a document, with one part for each
element that is open. So a reader that comes to the end has read a document of the grammar, and
since it takes every step that the grammar allows, it comes to the end of every document.
-/

namespace Stencil.Markup

namespace Reader

/-! ### Steps -/

/-- The tokens that take a reader from one stage to the next. -/
inductive Step : Reader → Located Token → Reader → Prop
  | start {around : List OpenElement} (less : Span) :
    Step ⟨.start, around⟩ ⟨.tagOpen, less⟩ ⟨.opened less.start, around⟩
  | opened {around : List OpenElement} (start : Nat) (name : Located String) :
    Step ⟨.opened start, around⟩ (nameToken name) ⟨.inTag ⟨start, name, [], []⟩, around⟩
  | named {around : List OpenElement} (e : OpenElement) (name : Located String) :
    Step ⟨.inTag e, around⟩ (nameToken name) ⟨.named e name, around⟩
  | assigned {around : List OpenElement} (e : OpenElement) (name : Located String) (equals : Span) :
    Step ⟨.named e name, around⟩ ⟨.equals, equals⟩ ⟨.assigned e name, around⟩
  | valued {around : List OpenElement} (e : OpenElement) (name value : Located String) :
    Step ⟨.assigned e name, around⟩ (stringToken value)
      ⟨.inTag { e with attributes := ⟨name, value⟩ :: e.attributes }, around⟩
  | inside {around : List OpenElement} (e : OpenElement) (greater : Span) :
    Step ⟨.inTag e, around⟩ ⟨.tagClose, greater⟩ ⟨.inside e, around⟩
  | closed {around : List OpenElement} (e : OpenElement) (close : Span) :
    Step ⟨.inTag e, around⟩ ⟨.selfClose, close⟩ (finish around (e.close close.stop))
  | child {around : List OpenElement} (e : OpenElement) (less : Span) :
    Step ⟨.inside e, around⟩ ⟨.tagOpen, less⟩ ⟨.opened less.start, e :: around⟩
  | closing {around : List OpenElement} (e : OpenElement) (less : Span) :
    Step ⟨.inside e, around⟩ ⟨.closeTagOpen, less⟩ ⟨.closing e, around⟩
  | closingNamed {around : List OpenElement} (e : OpenElement) (name : Located String) :
    Step ⟨.closing e, around⟩ (nameToken name) ⟨.closingNamed e name, around⟩
  | paired {around : List OpenElement} (e : OpenElement) (name : Located String) (close : Span)
    (hname : name.value = e.name.value) :
    Step ⟨.closingNamed e name, around⟩ ⟨.tagClose, close⟩ (finish around (e.close close.stop))

variable {r r' : Reader} {t : Located Token}

lemma step_eq_ok_iff : r.step t = .ok r' ↔ r.Step t r' := by
  constructor
  · intro h
    obtain ⟨stage, around⟩ := r
    obtain ⟨token, place⟩ := t
    cases stage <;> cases token <;> simp only [step, reduceCtorEq, Except.ok.injEq] at h
    case closingNamed.tagClose e name =>
      split at h
      · next hname =>
        obtain rfl := Except.ok.inj h
        exact .paired e name place hname
      · simp at h
    all_goals subst h
    case start.tagOpen => exact .start place
    case opened.name start name => exact .opened start ⟨name, place⟩
    case inTag.tagClose e => exact .inside e place
    case inTag.selfClose e => exact .closed e place
    case inTag.name e name => exact .named e ⟨name, place⟩
    case named.equals e name => exact .assigned e name place
    case assigned.string e name value => exact .valued e name ⟨value, place⟩
    case inside.tagOpen e => exact .child e place
    case inside.closeTagOpen e => exact .closing e place
    case closing.name e name => exact .closingNamed e ⟨name, place⟩
  · intro h
    cases h with
    | paired e name close hname => simp [step, hname]
    | _ => rfl

lemma run_cons_eq_ok_iff {us : List (Located Token)} :
    r.run (t :: us) = .ok r' ↔ ∃ r₁, r.Step t r₁ ∧ r₁.run us = .ok r' := by
  simp only [run_cons, ← step_eq_ok_iff]
  exact bind_eq_ok_iff

lemma Step.run_cons {r₁ : Reader} (h : r.Step t r₁) (us : List (Located Token)) :
    r.run (t :: us) = r₁.run us := by
  rw [Reader.run_cons, step_eq_ok_iff.mpr h]
  rfl

end Reader

/-! ### Soundness -/

/-- The tokens are the start tag of an open element, up to and without its end. -/
def OpenElement.ReadsTag (e : OpenElement) (us : List (Located Token)) : Prop :=
  ∃ less as, e.start = less.start ∧ FormAttributes e.attributes.reverse as ∧
    us = ⟨.tagOpen, less⟩ :: nameToken e.name :: as

/-- The tokens are the start tag of an open element and the children read so far. -/
def OpenElement.Reads (e : OpenElement) (us : List (Located Token)) : Prop :=
  ∃ tag greater cs, e.ReadsTag tag ∧ Form e.children.reverse cs ∧
    us = tag ++ ⟨.tagClose, greater⟩ :: cs

namespace OpenElement

lemma form_closed {e : OpenElement} {tag : List (Located Token)}
    (hnone : e.children = []) (htag : e.ReadsTag tag) (close : Span) :
    Form [e.close close.stop] (tag ++ [⟨.selfClose, close⟩]) := by
  obtain ⟨less, as, hstart, has, rfl⟩ := htag
  simpa [OpenElement.close, hnone, hstart] using Form.closed less close has .nil

lemma form_paired {e : OpenElement} {vs : List (Located Token)} (h : e.Reads vs)
    (less name close : Span) :
    Form [e.close close.stop] (vs ++
      [⟨.closeTagOpen, less⟩, nameToken ⟨e.name.value, name⟩, ⟨.tagClose, close⟩]) := by
  obtain ⟨tag, greater, cs, ⟨less₁, as, hstart, has, rfl⟩, hcs, rfl⟩ := h
  simpa [OpenElement.close, hstart] using
    Form.paired less₁ greater less name close has hcs .nil

end OpenElement

/-- The tokens lead from the start of a document to what follows in the innermost of some open
elements. -/
inductive Leads : List OpenElement → List (Located Token) → Prop
  | nil : Leads [] []
  | cons {e : OpenElement} {around : List OpenElement} {us vs : List (Located Token)}
    (haround : Leads around us) (h : e.Reads vs) : Leads (e :: around) (us ++ vs)

/-- The tokens that a reader has read since the start of the document. -/
inductive Reader.HasRead : Reader → List (Located Token) → Prop
  | start : HasRead ⟨.start, []⟩ []
  | opened {around : List OpenElement} {us : List (Located Token)} (haround : Leads around us)
    (less : Span) : HasRead ⟨.opened less.start, around⟩ (us ++ [⟨.tagOpen, less⟩])
  | inTag {around : List OpenElement} {us tag : List (Located Token)} {e : OpenElement}
    (haround : Leads around us) (hnone : e.children = []) (htag : e.ReadsTag tag) :
    HasRead ⟨.inTag e, around⟩ (us ++ tag)
  | named {around : List OpenElement} {us tag : List (Located Token)} {e : OpenElement}
    (haround : Leads around us) (hnone : e.children = []) (htag : e.ReadsTag tag)
    (name : Located String) :
    HasRead ⟨.named e name, around⟩ (us ++ tag ++ [nameToken name])
  | assigned {around : List OpenElement} {us tag : List (Located Token)} {e : OpenElement}
    (haround : Leads around us) (hnone : e.children = []) (htag : e.ReadsTag tag)
    (name : Located String) (equals : Span) :
    HasRead ⟨.assigned e name, around⟩ (us ++ tag ++ [nameToken name, ⟨.equals, equals⟩])
  | inside {e : OpenElement} {around : List OpenElement} {us : List (Located Token)}
    (h : Leads (e :: around) us) : HasRead ⟨.inside e, around⟩ us
  | closing {e : OpenElement} {around : List OpenElement} {us : List (Located Token)}
    (h : Leads (e :: around) us) (less : Span) :
    HasRead ⟨.closing e, around⟩ (us ++ [⟨.closeTagOpen, less⟩])
  | closingNamed {e : OpenElement} {around : List OpenElement} {us : List (Located Token)}
    (h : Leads (e :: around) us) (less : Span) (name : Located String) :
    HasRead ⟨.closingNamed e name, around⟩ (us ++ [⟨.closeTagOpen, less⟩, nameToken name])
  | complete {root : Element} {us : List (Located Token)} (h : Form [root] us) :
    HasRead ⟨.complete root, []⟩ us

namespace Reader

variable {r r' : Reader} {t : Located Token} {us : List (Located Token)}

/-- The tokens of a whole element are read as such, at the place where it stands. -/
lemma HasRead.finish {around : List OpenElement} {e : Element} {vs : List (Located Token)}
    (haround : Leads around us) (he : Form [e] vs) : (finish around e).HasRead (us ++ vs) := by
  cases haround with
  | nil => exact .complete he
  | @cons parent around us ps haround hparent =>
    obtain ⟨tag, greater, cs, htag, hcs, rfl⟩ := hparent
    have hmore : OpenElement.Reads { parent with children := e :: parent.children }
        (tag ++ ⟨.tagClose, greater⟩ :: (cs ++ vs)) :=
      ⟨tag, greater, cs ++ vs, htag, by simpa using hcs.append he, rfl⟩
    simpa [Reader.finish] using HasRead.inside (.cons haround hmore)

/-- A step reads one more token. -/
lemma HasRead.step (h : r.HasRead us) (hstep : r.Step t r') : r'.HasRead (us ++ [t]) := by
  cases hstep with
  | start less =>
    cases h with
    | start => exact .opened .nil less
  | opened start name =>
    cases h with
    | opened haround less =>
      simpa using HasRead.inTag (e := ⟨less.start, name, [], []⟩) haround rfl
        ⟨less, [], rfl, .nil, rfl⟩
  | named e name =>
    cases h with
    | inTag haround hnone htag => exact .named haround hnone htag name
  | assigned e name equals =>
    cases h with
    | named haround hnone htag =>
      simpa using HasRead.assigned haround hnone htag name equals
  | valued e name value =>
    cases h with
    | assigned haround hnone htag _ equals =>
      obtain ⟨less, as, hstart, has, rfl⟩ := htag
      have hmore : OpenElement.ReadsTag { e with attributes := ⟨name, value⟩ :: e.attributes }
          (⟨.tagOpen, less⟩ :: nameToken e.name ::
            (as ++ [nameToken name, ⟨.equals, equals⟩, stringToken value])) :=
        ⟨less, _, hstart, by simpa using has.append (.cons (a := ⟨name, value⟩) equals .nil), rfl⟩
      simpa using HasRead.inTag (e := { e with attributes := ⟨name, value⟩ :: e.attributes })
        haround hnone hmore
  | inside e greater =>
    cases h with
    | inTag haround hnone htag =>
      have hreads : e.Reads (_ ++ [⟨.tagClose, greater⟩]) :=
        ⟨_, greater, [], htag, by simp [hnone, Form.nil], rfl⟩
      simpa using HasRead.inside (.cons haround hreads)
  | closed e close =>
    cases h with
    | inTag haround hnone htag =>
      simpa using HasRead.finish haround (OpenElement.form_closed hnone htag close)
  | child e less =>
    cases h with
    | inside h => exact .opened h less
  | closing e less =>
    cases h with
    | inside h => exact .closing h less
  | closingNamed e name =>
    cases h with
    | closing h less => simpa using HasRead.closingNamed h less name
  | paired e name close hname =>
    cases h with
    | closingNamed h less =>
      cases h with
      | cons haround h =>
        have hform := OpenElement.form_paired h less name.span close
        simpa [nameToken, hname] using HasRead.finish haround hform

/-- **What a reader has read** stays right along a run. -/
theorem HasRead.run (h : r.HasRead us) {vs : List (Located Token)} (hrun : r.run vs = .ok r') :
    r'.HasRead (us ++ vs) := by
  induction vs generalizing r us with
  | nil =>
    obtain rfl := Except.ok.inj hrun
    simpa using h
  | cons t vs ih =>
    obtain ⟨r₁, hstep, hrest⟩ := run_cons_eq_ok_iff.mp hrun
    simpa using ih (h.step hstep) hrest

lemma hasRead_of_run (hrun : run .init us = .ok r) : r.HasRead us := HasRead.start.run hrun

/-! ### Completeness -/

lemma run_attributes {as : List Attribute} {us : List (Located Token)} (h : FormAttributes as us)
    (e : OpenElement) (around : List OpenElement) (rest : List (Located Token)) :
    run ⟨.inTag e, around⟩ (us ++ rest) =
      run ⟨.inTag { e with attributes := as.reverse ++ e.attributes }, around⟩ rest := by
  induction h generalizing e with
  | nil => rfl
  | @cons a as us equals _ ih =>
    rw [List.cons_append, (Step.named e a.name).run_cons, List.cons_append,
      (Step.assigned e a.name equals).run_cons, List.cons_append,
      (Step.valued e a.name a.value).run_cons, ih]
    simp

variable {name : Located String} {attributes : List Attribute} {as : List (Located Token)}

lemma run_tag (has : FormAttributes attributes as) (start : Nat) (around : List OpenElement)
    (rest : List (Located Token)) :
    run ⟨.opened start, around⟩ (nameToken name :: (as ++ rest)) =
      run ⟨.inTag ⟨start, name, attributes.reverse, []⟩, around⟩ rest := by
  rw [(Step.opened start name).run_cons, run_attributes has]
  simp

/-- A reader goes on after an element in one tag. -/
lemma run_closed (has : FormAttributes attributes as) (start : Nat) (close : Span)
    (around : List OpenElement) (rest : List (Located Token)) :
    run ⟨.opened start, around⟩ (nameToken name :: (as ++ ⟨.selfClose, close⟩ :: rest)) =
      run (finish around (.mk name attributes [] ⟨start, close.stop⟩)) rest := by
  rw [run_tag has, (Step.closed _ close).run_cons]
  simp [OpenElement.close]

/-- A reader goes on after an element with children if it reads the children. -/
lemma run_paired (has : FormAttributes attributes as) (children : List Element)
    {cs : List (Located Token)} (start : Nat) (greater less name' close : Span)
    (around : List OpenElement) (rest : List (Located Token))
    (hcs : ∀ rest, run ⟨.inside ⟨start, name, attributes.reverse, []⟩, around⟩ (cs ++ rest) =
      run ⟨.inside ⟨start, name, attributes.reverse, children.reverse⟩, around⟩ rest) :
    run ⟨.opened start, around⟩ (nameToken name :: (as ++ ⟨.tagClose, greater⟩ :: (cs ++
        ⟨.closeTagOpen, less⟩ :: nameToken ⟨name.value, name'⟩ :: ⟨.tagClose, close⟩ :: rest))) =
      run (finish around (.mk name attributes children ⟨start, close.stop⟩)) rest := by
  rw [run_tag has, (Step.inside _ greater).run_cons, hcs, (Step.closing _ less).run_cons,
    (Step.closingNamed _ ⟨name.value, name'⟩).run_cons,
    (Step.paired ⟨start, name, _, _⟩ ⟨name.value, name'⟩ close rfl).run_cons]
  simp [OpenElement.close]

/-- A reader inside an element reads what forms children of it. -/
lemma run_form {es : List Element} {us : List (Located Token)} (h : Form es us) (e : OpenElement)
    (around : List OpenElement) (rest : List (Located Token)) :
    run ⟨.inside e, around⟩ (us ++ rest) =
      run ⟨.inside { e with children := es.reverse ++ e.children }, around⟩ rest := by
  induction h generalizing e around rest with
  | nil => rfl
  | closed less close has _ ih =>
    simp only [List.cons_append, List.append_assoc]
    rw [(Step.child e less).run_cons, run_closed has]
    simp [finish, ih]
  | @paired _ _ _ children _ _ _ less greater less' name' close has _ _ ihc ih =>
    simp only [List.cons_append, List.append_assoc]
    rw [(Step.child e less).run_cons,
      run_paired has children less.start greater less' name' close _ _ fun rest => by simp [ihc]]
    simp [finish, ih]

/-- **A reader reads every document** of the grammar to its end. -/
theorem run_init {root : Element} {us : List (Located Token)} (h : Form [root] us) :
    run .init us = .ok ⟨.complete root, []⟩ := by
  cases h with
  | closed less close has hrest =>
    cases hrest
    rw [List.cons_append, List.cons_append, init, (Step.start less).run_cons, run_closed has]
    rfl
  | @paired _ _ _ children _ _ _ less greater less' name' close has hchildren hrest =>
    cases hrest
    simp only [List.cons_append, List.append_assoc]
    rw [init, (Step.start less).run_cons,
      run_paired has children less.start greater less' name' close _ _ fun rest => by
        simp [run_form hchildren]]
    rfl

end Reader

/-- No tokens form two elements. -/
lemma Form.unique {e f : Element} {us : List (Located Token)} (he : Form [e] us)
    (hf : Form [f] us) : e = f := by
  have heq := (Reader.run_init he).symm.trans (Reader.run_init hf)
  simpa using heq

/-! ### Documents -/

/-- The tokens form a document if and only if they are one of the grammar. -/
theorem Document.ofTokens_eq_ok_iff {length : Nat} {us : List (Located Token)} {d : Document} :
    ofTokens length us = .ok d ↔ Form [d.root] us := by
  constructor
  · intro h
    unfold ofTokens at h
    split at h
    · simp at h
    · next root around hrun =>
      obtain rfl := Except.ok.inj h
      have hread := Reader.hasRead_of_run hrun
      cases hread with
      | complete hform => exact hform
    · simp at h
  · intro h
    rw [ofTokens, Reader.run_init h]

namespace Writes

variable {t u : Tree} {ws : List Token}

/-- What is written is formed by the tokens, wherever they stand. -/
lemma exists_root (h : Writes [t] ws) {us : List (Located Token)} (hus : values us = ws) :
    ∃ root : Element, Form [root] us ∧ root.tree = t := by
  obtain ⟨es, hes, htrees⟩ := h.exists_form hus
  obtain _ | ⟨root, _ | ⟨e, es⟩⟩ := es <;> simp [Element.trees] at htrees
  exact ⟨root, hes, htrees⟩

/-- No tokens are a way of writing two trees. -/
lemma unique (ht : Writes [t] ws) (hu : Writes [u] ws) : t = u := by
  have hus := values_placed ws ⟨0, 0⟩
  obtain ⟨root, hroot, rfl⟩ := ht.exists_root hus
  obtain ⟨root', hroot', rfl⟩ := hu.exists_root hus
  rw [hroot.unique hroot']

end Writes

/-- **The documents that can be read** are those whose tokens are a way of writing a tree, and what
is read is this tree. No tokens are a way of writing two trees. -/
theorem Document.parse_eq_ok_iff_writes :
    (∀ (source : String) (t : Tree), Writes [t] (values (tokens source)) ↔
      ∃ d, parse source = .ok d ∧ d.root.tree = t) ∧
    ∀ ws : List Token, {t | Writes [t] ws}.Subsingleton := by
  refine ⟨fun source t => ?_, fun ws t ht u hu => Writes.unique ht hu⟩
  constructor
  · intro h
    obtain ⟨root, hform, rfl⟩ := h.exists_root rfl
    exact ⟨⟨root⟩, ofTokens_eq_ok_iff.mpr hform, rfl⟩
  · rintro ⟨d, hparse, rfl⟩
    exact (ofTokens_eq_ok_iff.mp hparse).writes

end Stencil.Markup

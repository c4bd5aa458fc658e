import Stencil.Proofs.Config.Elements
import Stencil.Proofs.Markup.Stretches

/-!
Where the elements of a document are.

The tokens of an element stand in a row among those of the document, from its `<` to its last `>`.
So its name, its attributes and its children lie in it one after the other, and its text can be read
without what is around it: all that changes is where the text starts.
-/

namespace Stencil

/-! ### Moving places -/

/-- The place in a text with so many bytes before it. -/
def Span.shift (n : Nat) (p : Span) : Span := ⟨n + p.start, n + p.stop⟩

def Located.shift {α : Type} (n : Nat) (a : Located α) : Located α := ⟨a.value, a.span.shift n⟩

namespace Markup

def Attribute.shift (n : Nat) (a : Attribute) : Attribute := ⟨a.name.shift n, a.value.shift n⟩

namespace Element

mutual

/-- The element in a text with so many bytes before it. -/
def shift (n : Nat) : Element → Element
  | mk name attributes children span =>
    mk (name.shift n) (attributes.map (Attribute.shift n)) (allShifted n children) (span.shift n)

def allShifted (n : Nat) : List Element → List Element
  | [] => []
  | e :: es => shift n e :: allShifted n es

end

@[simp] lemma allShifted_eq_map (n : Nat) (es : List Element) :
    allShifted n es = es.map (shift n) := by
  induction es with
  | nil => rfl
  | cons e es ih => rw [allShifted, ih, List.map_cons]

end Element

lemma placeTokens_shift (n start : Nat) (ls : List Lexeme) :
    placeTokens (n + start) ls = (placeTokens start ls).map (Located.shift n) := by
  induction ls generalizing start with
  | nil => rfl
  | cons l ls ih =>
    obtain ⟨role, text⟩ := l
    have hrest := ih (start + byteSize text)
    rw [← Nat.add_assoc] at hrest
    cases role with
    | token t =>
      rw [placeTokens, placeTokens, List.map_cons, hrest, Located.shift, Span.shift, Nat.add_assoc]
    | layout => exact hrest
    | dropped => exact hrest

lemma tokensFrom_shift (n : Nat) (cs : List Char) :
    tokensFrom n cs = (tokensFrom 0 cs).map (Located.shift n) :=
  placeTokens_shift n 0 (lexemes cs)

variable {us vs : List (Located Token)}

lemma FormAttributes.shift {as : List Attribute} (h : FormAttributes as us) (n : Nat) :
    FormAttributes (as.map (Attribute.shift n)) (us.map (Located.shift n)) := by
  induction h with
  | nil => exact .nil
  | cons equals _ ih => exact .cons (equals.shift n) ih

/-- Tokens with more bytes before them form the elements with more bytes before them. -/
lemma Form.shift {es : List Element} (h : Form es us) (n : Nat) :
    Form (es.map (Element.shift n)) (us.map (Located.shift n)) := by
  induction h with
  | nil => exact .nil
  | closed less close has _ ih =>
    simpa [Element.shift, Located.shift, Span.shift, nameToken] using
      Form.closed (less.shift n) (close.shift n) (has.shift n) ih
  | paired less greater less' name' close has _ _ ihc ih =>
    simpa [Element.shift, Located.shift, Span.shift, nameToken] using
      Form.paired (less.shift n) (greater.shift n) (less'.shift n) (name'.shift n) (close.shift n)
        (has.shift n) ihc ih

/-! ### Places inside a place -/

/-- The places follow one another from one place in the text to another, and none of them is
empty. -/
structure InOrder (start stop : Nat) (places : List Span) : Prop where
  le : start ≤ stop
  within : ∀ p ∈ places, start ≤ p.start ∧ p.start < p.stop ∧ p.stop ≤ stop
  apart : places.Pairwise fun p q => p.stop ≤ q.start

namespace InOrder

variable {start middle stop : Nat} {p : Span} {ps qs : List Span}

lemma nil (h : start ≤ stop) : InOrder start stop [] := ⟨h, by simp, .nil⟩

lemma cons (hstart : start ≤ p.start) (hstop : p.start < p.stop) (h : InOrder p.stop stop ps) :
    InOrder start stop (p :: ps) where
  le := by
    have hle := h.le
    omega
  within := by
    refine List.forall_mem_cons.mpr ⟨⟨hstart, hstop, h.le⟩, fun q hq => ?_⟩
    have hlater := h.within q hq
    omega
  apart := List.pairwise_cons.mpr ⟨fun q hq => (h.within q hq).1, h.apart⟩

lemma mono {start' stop' : Nat} (h : InOrder start stop ps) (hstart : start' ≤ start)
    (hstop : stop ≤ stop') : InOrder start' stop' ps where
  le := hstart.trans (h.le.trans hstop)
  within p hp := by
    have hwithin := h.within p hp
    omega
  apart := h.apart

lemma sublist (h : InOrder start stop qs) (hsub : ps.Sublist qs) : InOrder start stop ps where
  le := h.le
  within p hp := h.within p (hsub.subset hp)
  apart := h.apart.sublist hsub

lemma append (h : InOrder start middle ps) (h' : InOrder middle stop qs) :
    InOrder start stop (ps ++ qs) where
  le := h.le.trans h'.le
  within p hp := by
    have hle := h.le
    have hle' := h'.le
    rcases List.mem_append.mp hp with hp | hp
    · have hfirst := h.within p hp
      omega
    · have hsecond := h'.within p hp
      omega
  apart := by
    refine List.pairwise_append.mpr ⟨h.apart, h'.apart, fun p hp q hq => ?_⟩
    exact (h.within p hp).2.2.trans (h'.within q hq).1

end InOrder

/-- The places of the name and the value. -/
def Attribute.places (a : Attribute) : List Span := [a.name.span, a.value.span]

/-- The places of what is in the element: its name, its attributes and its children. -/
def Element.places (e : Element) : List Span :=
  e.name.span :: e.attributes.flatMap Attribute.places ++ e.children.map Element.span

/-! ### The tokens of an element -/

/-- The tokens are those of the element: between the first and the last there are its name, its
attributes and its children in this order. -/
inductive Element.HasTokens (e : Element) : List (Located Token) → Prop
  | mk {first last : Located Token} {as between cs tail : List (Located Token)}
    (hfirst : first.value = .tagOpen) (hlast : last.value = .tagClose ∨ last.value = .selfClose)
    (hspan : e.span = ⟨first.span.start, last.span.stop⟩)
    (hattributes : FormAttributes e.attributes as) (hchildren : Form e.children cs) :
    HasTokens e (first :: (nameToken e.name :: as ++ between ++ cs ++ tail) ++ [last])

variable {e : Element} {es : List Element} {start stop : Nat}

lemma Form.hasTokens (h : Form [e] us) : e.HasTokens us := by
  cases h with
  | @closed name attributes as _ _ less close has hrest =>
    cases hrest
    have htokens : Element.HasTokens (.mk name attributes [] ⟨less.start, close.stop⟩)
        (⟨.tagOpen, less⟩ :: (nameToken name :: as ++ [] ++ [] ++ []) ++
          [⟨.selfClose, close⟩]) := .mk rfl (.inr rfl) rfl has .nil
    simpa using htokens
  | @paired name attributes as children _ cs _ less greater less' name' close has hcs hrest =>
    cases hrest
    have htokens : Element.HasTokens (.mk name attributes children ⟨less.start, close.stop⟩)
        (⟨.tagOpen, less⟩ :: (nameToken name :: as ++ [⟨.tagClose, greater⟩] ++ cs ++
          [⟨.closeTagOpen, less'⟩, nameToken ⟨name.value, name'⟩]) ++ [⟨.tagClose, close⟩]) :=
      .mk rfl (.inl rfl) rfl has hcs
    simpa using htokens

/-- The first of the elements takes the first of the tokens. -/
lemma Form.exists_append (h : Form (e :: es) us) :
    ∃ vs ws, us = vs ++ ws ∧ Form [e] vs ∧ Form es ws := by
  cases h with
  | closed less close has hrest =>
    exact ⟨_, _, by simp, .closed less close has .nil, hrest⟩
  | paired less greater less' name' close has hcs hrest =>
    exact ⟨_, _, by simp, .paired less greater less' name' close has hcs .nil, hrest⟩

/-- Elements in a list have their tokens in a row. -/
lemma Form.exists_of_mem (h : Form es us) (he : e ∈ es) : ∃ vs, vs <:+: us ∧ Form [e] vs := by
  induction es generalizing us with
  | nil => exact absurd he List.not_mem_nil
  | cons f es ih =>
    obtain ⟨vs, ws, rfl, hf, hes⟩ := h.exists_append
    rcases List.mem_cons.mp he with rfl | he
    · exact ⟨vs, (List.prefix_append vs ws).isInfix, hf⟩
    · obtain ⟨us, hpart, hus⟩ := ih hes he
      exact ⟨us, hpart.trans (List.suffix_append vs ws).isInfix, hus⟩

/-- So have all elements below an element. -/
lemma Form.exists_of_mem_descendants {f : Element} (h : Form [f] us) (he : e ∈ f.descendants) :
    ∃ vs, vs <:+: us ∧ Form [e] vs := by
  induction f using Element.rec_children generalizing us with
  | step f ih =>
    obtain ⟨c, hc, hbelow⟩ := Element.mem_descendants_iff.mp he
    have htokens := h.hasTokens
    cases htokens with
    | @mk first last as between cs tail hfirst hlast hspan has hcs =>
      have hchildren : cs <:+:
          first :: (nameToken f.name :: as ++ between ++ cs ++ tail) ++ [last] :=
        ⟨first :: (nameToken f.name :: as ++ between), tail ++ [last], by simp⟩
      obtain ⟨vs, hvs, hform⟩ := hcs.exists_of_mem hc
      have hpart := hvs.trans hchildren
      rcases hbelow with rfl | hbelow
      · exact ⟨vs, hpart, hform⟩
      · obtain ⟨ws, hws, hform⟩ := ih c hc hform hbelow
        exact ⟨ws, hws.trans hpart, hform⟩

/-! ### Places in order -/

lemma Laid.inOrder (h : Laid start stop us) : InOrder start stop (us.map (·.span)) := by
  induction h with
  | nil hle => exact .nil hle
  | cons hstart hstop _ ih => exact .cons hstart hstop ih

/-- Between the first and the last of some tokens there are the others. -/
lemma Laid.ends {first last : Located Token} (h : Laid start stop (first :: us ++ [last])) :
    start ≤ first.span.start ∧ first.span.start < first.span.stop ∧
      Laid first.span.stop last.span.start us ∧
      last.span.start < last.span.stop ∧ last.span.stop ≤ stop := by
  cases h with
  | cons hstart hstop hrest =>
    obtain ⟨middle, hus, hlast⟩ := Laid.append_iff.mp hrest
    cases hlast with
    | cons hstart' hstop' hnone => exact ⟨hstart, hstop, hus.mono_stop hstart', hstop', hnone.le⟩

lemma Laid.of_part {ts : List (Located Token)} (h : Laid start stop ts) (hpart : us <:+: ts) :
    Laid start stop us := by
  obtain ⟨before, after, rfl⟩ := hpart
  obtain ⟨_, hfirst, hafter⟩ := Laid.append_iff.mp h
  obtain ⟨_, hbefore, hus⟩ := Laid.append_iff.mp hfirst
  exact (hus.mono hbefore.le).mono_stop hafter.le

lemma FormAttributes.sublist {as : List Attribute} (h : FormAttributes as us) :
    (as.flatMap Attribute.places).Sublist (us.map (·.span)) := by
  induction h with
  | nil => exact .slnil
  | cons equals _ ih => exact .cons_cons _ (.cons _ (.cons_cons _ ih))

/-- The place of an element goes from the first of its tokens to the last. -/
lemma Element.HasTokens.place (h : e.HasTokens us) (hlaid : Laid start stop us) :
    start ≤ e.span.start ∧ e.span.start < e.span.stop ∧ e.span.stop ≤ stop := by
  cases h with
  | mk hfirst hlast hspan has hcs =>
    obtain ⟨hstart, hlt, hbody, hlt', hstop⟩ := hlaid.ends
    have hle := hbody.le
    rw [hspan]
    exact ⟨hstart, by dsimp only; omega, hstop⟩

/-- Elements are one after the other where their tokens are. -/
lemma Form.inOrder (h : Form es us) (hlaid : Laid start stop us) :
    InOrder start stop (es.map Element.span) := by
  induction es generalizing start us with
  | nil => exact .nil hlaid.le
  | cons e es ih =>
    obtain ⟨vs, ws, rfl, he, hes⟩ := h.exists_append
    obtain ⟨middle, hvs, hws⟩ := Laid.append_iff.mp hlaid
    obtain ⟨hstart, hstop, hmiddle⟩ := he.hasTokens.place hvs
    exact .cons hstart hstop (ih hes (hws.mono hmiddle))

/-- The parts of an element are one after the other between its ends. -/
lemma Element.HasTokens.inOrder (h : e.HasTokens us) (hlaid : Laid start stop us) :
    InOrder (e.span.start + 1) (e.span.stop - 1) e.places := by
  cases h with
  | @mk first last as between cs tail hfirst hlast hspan has hcs =>
    obtain ⟨hstart, hlt, hbody, hlt', hstop⟩ := hlaid.ends
    obtain ⟨after, hparts, htail⟩ := Laid.append_iff.mp hbody
    obtain ⟨before, htag, hcontent⟩ := Laid.append_iff.mp hparts
    have hsub : (e.name.span :: e.attributes.flatMap Attribute.places).Sublist
        ((nameToken e.name :: as ++ between).map (·.span)) := by
      rw [List.cons_append, List.map_cons, List.map_append]
      exact .cons_cons _ (has.sublist.trans (List.sublist_append_left _ _))
    have hplaces := (htag.inOrder.sublist hsub).append (hcs.inOrder hcontent)
    have hend := htail.le
    rw [hspan]
    exact hplaces.mono hlt (by dsimp only; omega)

/-! ### The text of an element -/

/-- The same element can be read without the bytes before its tokens. -/
lemma Form.exists_shift {n : Nat} (h : Form [e] (us.map (Located.shift n))) :
    ∃ f, Form [f] us ∧ f.shift n = e := by
  have hwrites := h.writes
  have hvalues : values us = values (us.map (Located.shift n)) := by
    simp [values, Located.shift, Function.comp_def]
  obtain ⟨f, hf, -⟩ := hwrites.exists_root hvalues
  exact ⟨f, hf, (hf.shift n).unique h⟩

lemma Token.Word.ne_nil {t : Token} {word : List Char} (h : t.Word word) : word ≠ [] := by
  cases h <;> simp

lemma Token.Word.eq_toList {name : String} {word : List Char} (h : (Token.name name).Word word) :
    word = name.toList := by
  cases h
  rw [String.toList_ofList]

/-- The last token of an element ends with a `>`. -/
lemma Token.Word.exists_append {t : Token} {word : List Char} (h : t.Word word)
    (ht : t = .tagClose ∨ t = .selfClose) : ∃ more, word = more ++ ['>'] := by
  rcases ht with rfl | rfl
  · cases h
    exact ⟨[], rfl⟩
  · cases h
    exact ⟨['/'], rfl⟩

namespace Document

variable {source : String} {d : Document}

lemma exists_form_of_mem (h : parse source = .ok d) (he : e ∈ d.elements) :
    ∃ vs, vs <:+: tokens source ∧ Form [e] vs := by
  have hform := ofTokens_eq_ok_iff.mp h
  rcases List.mem_cons.mp he with rfl | he
  · exact ⟨_, List.infix_rfl, hform⟩
  · exact hform.exists_of_mem_descendants he

lemma nameToken_mem_tokens (h : parse source = .ok d) (he : e ∈ d.elements) :
    nameToken e.name ∈ tokens source := by
  obtain ⟨vs, hpart, hform⟩ := exists_form_of_mem h he
  have htokens := hform.hasTokens
  refine hpart.subset ?_
  cases htokens with
  | mk => simp

/-- Where the name of an element lies there is its tag. -/
lemma occupies_tag (h : parse source = .ok d) (he : e ∈ d.elements) :
    Occupies source e.name.span e.tag.toList := by
  obtain ⟨word, hword, hplace, -⟩ := exists_word (nameToken_mem_tokens h he)
  obtain rfl := hword.eq_toList
  exact hplace

/-- Where an element lies there is a text with the same element, but for what is before it. -/
lemma exists_text (h : parse source = .ok d) (he : e ∈ d.elements) :
    ∃ content f, Occupies source e.span ('<' :: content ++ ['>']) ∧
      parse (String.ofList ('<' :: content ++ ['>'])) = .ok ⟨f⟩ ∧ f.shift e.span.start = e := by
  obtain ⟨vs, ⟨us, ws, hsource⟩, hform⟩ := exists_form_of_mem h he
  have htokens := hform.hasTokens
  cases htokens with
  | mk hfirst hlast hspan =>
    obtain ⟨word, middle, word', hword, hword', hplace, hself⟩ := exists_stretch hsource.symm
    rw [hfirst] at hword
    cases hword
    obtain ⟨more, rfl⟩ := hword'.exists_append hlast
    have htext : ['<'] ++ middle ++ (more ++ ['>']) = '<' :: (middle ++ more) ++ ['>'] := by simp
    rw [htext] at hplace hself
    rw [tokensFrom_shift] at hself
    rw [← hself] at hform
    obtain ⟨f, hf, hshift⟩ := hform.exists_shift
    rw [hspan]
    refine ⟨middle ++ more, f, hplace, ofTokens_eq_ok_iff.mpr ?_, hshift⟩
    rwa [tokens_ofList]

/-- **Elements nest, and each is a text of its own.** The name, the attributes and the children of
an element lie in it one after the other, and where its name lies there is its tag. The text of the
element starts with its `<`, ends with its last `>`, and is a document with the same element, but
for what is before it in the source. -/
theorem parse_ok_element_places (h : parse source = .ok d) (he : e ∈ d.elements) :
    InOrder (e.span.start + 1) (e.span.stop - 1) e.places ∧
    Occupies source e.name.span e.tag.toList ∧
    ∃ content f, Occupies source e.span ('<' :: content ++ ['>']) ∧
      parse (String.ofList ('<' :: content ++ ['>'])) = .ok ⟨f⟩ ∧ f.shift e.span.start = e := by
  obtain ⟨vs, hpart, hform⟩ := exists_form_of_mem h he
  have hlaid := (laid_tokens source).of_part hpart
  exact ⟨hform.hasTokens.inOrder hlaid, occupies_tag h he, exists_text h he⟩

/-- A source with a prolog, a character that is dropped, and a comment. -/
def oddSource : String := "<?x?>é<a b='ü&lt;'>1<!-- - --><c d='&'/></a>"

/-- The text of the inner element is `<c d='&'/>`, from the byte 32 on. -/
theorem parse_ok_element_places_odd : ∃ d, parse oddSource = .ok d ∧ ∃ e ∈ d.elements,
    e.span = ⟨32, 42⟩ ∧ Occupies oddSource e.span "<c d='&'/>".toList ∧
    ∃ f, parse "<c d='&'/>" = .ok ⟨f⟩ ∧ f.shift 32 = e := by
  have hparse : (parse oddSource).toOption.any fun d => d.elements.any (·.span = ⟨32, 42⟩) := by
    decide +kernel
  obtain ⟨d, hd, hany⟩ := exists_of_toOption_any hparse
  obtain ⟨e, he, hspan⟩ := List.any_eq_true.mp hany
  rw [decide_eq_true_eq] at hspan
  obtain ⟨-, -, content, f, hplace, hf, hshift⟩ := parse_ok_element_places hd he
  have htext : Occupies oddSource e.span "<c d='&'/>".toList := by
    rw [hspan]
    exact ⟨oddSource.toList.take 30, "</a>".toList, by decide +kernel, by decide +kernel⟩
  have hcontent := hplace.unique htext
  rw [hcontent, String.ofList_toList] at hf
  rw [hspan] at hshift
  exact ⟨d, hd, e, he, hspan, htext, f, hf, hshift⟩

end Document

end Markup

end Stencil

import Stencil.Proofs.Config.Problems
import Stencil.Proofs.Markup.ElementPlaces
import Stencil.Report.Config

/-!
What the reports on a document mark.

Every problem is about an element, and its place is where the tag of the element is in the source,
or the whole of a key whose name was there before. That place is counted in bytes, and a report
counts in characters. So the report marks the right text if and only if no character up to the end
of it takes more than one byte.
-/

namespace Stencil

open Markup

/-! ### Bytes and characters -/

lemma length_le_byteSize (cs : List Char) : cs.length ≤ byteSize cs := by
  induction cs with
  | nil => exact Nat.le_refl _
  | cons c cs ih =>
    have hpos := c.utf8Size_pos
    rw [List.length_cons, byteSize_cons]
    omega

lemma utf8Size_eq_one_iff_toNat {c : Char} : c.utf8Size = 1 ↔ c.toNat < 128 := by
  rw [Char.utf8Size_eq_one_iff, UInt32.le_iff_toNat_le]
  exact Nat.lt_succ_iff.symm

/-- A text has as many bytes as characters if and only if it is in ASCII. -/
lemma byteSize_eq_length_iff (cs : List Char) :
    byteSize cs = cs.length ↔ ∀ c ∈ cs, c.toNat < 128 := by
  induction cs with
  | nil => simp
  | cons c cs ih =>
    have hpos := c.utf8Size_pos
    have hle := length_le_byteSize cs
    rw [List.forall_mem_cons, ← ih, ← utf8Size_eq_one_iff_toNat, byteSize_cons, List.length_cons]
    omega

namespace Report

/-- The characters that the report marks are those of the text after `before`. -/
def Marks (r : Report) (before text : List Char) : Prop :=
  ∀ digits offset, (View.mk r digits).inMark offset ↔
    before.length ≤ offset ∧ offset < before.length + text.length

lemma marks_iff {r : Report} {before text : List Char} (htext : text ≠ []) :
    r.Marks before text ↔ r.place = ⟨before.length, before.length + text.length⟩ := by
  have hpos := List.length_pos_of_ne_nil htext
  obtain ⟨headline, label, start, stop⟩ := r
  simp only [Marks, View.inMark, Bool.and_eq_true, decide_eq_true_eq, Span.mk.injEq]
  constructor
  · intro h
    have hfirst := h 0 before.length
    have hlast := h 0 (before.length + text.length - 1)
    have hstart := h 0 start
    have hstop := h 0 (stop - 1)
    omega
  · rintro ⟨rfl, rfl⟩ _ offset
    exact Iff.rfl

/-- A place in bytes marks the text in the source that it is the place of if and only if all is in
ASCII up to the end of the text. -/
lemma marks_iff_ascii {r : Report} {before text : List Char} (htext : text ≠ [])
    (hplace : r.place = ⟨byteSize before, byteSize before + byteSize text⟩) :
    r.Marks before text ↔ ∀ c ∈ before ++ text, c.toNat < 128 := by
  have hbefore := length_le_byteSize before
  have hsize := length_le_byteSize text
  rw [marks_iff htext, hplace, Span.mk.injEq, ← byteSize_eq_length_iff, byteSize_append,
    List.length_append]
  omega

end Report

/-! ### What the problems are about -/

namespace Markup.Document

/-- The problem is about the element. -/
inductive Blames (d : Document) : Problem → Element → Prop
  | missingAttribute {e : Element} {attr : String} (he : e ∈ d.elements) (hneeds : e.Requires attr)
    (hnone : e.attr? attr = none) : Blames d (.missingAttribute e.tag attr e.name.span) e
  | duplicateTemplate {e : Element} {name : String} (he : e ∈ Element.repeats d.templates name) :
    Blames d (.duplicateTemplate name e.name.span) e
  | duplicateKey {t e : Element} {template name : String}
    (ht : t ∈ Element.named d.templates template) (he : e ∈ Element.repeats t.reachedKeys name) :
    Blames d (.duplicateKey template name e.span) e
  | noTemplates (hnone : ∀ e ∈ d.elements, e.tag ≠ "template") :
    Blames d (.noTemplates d.root.name.span) d.root

variable {d : Document} {p : Problem} {e : Element}

lemma exists_blames (hp : p ∈ d.problems) : ∃ e, d.Blames p e := by
  rcases List.mem_append.mp hp with hp | hp
  · obtain ⟨e, he, hp⟩ := List.mem_flatMap.mp hp
    obtain ⟨attr, hlacks, rfl⟩ := List.mem_map.mp hp
    obtain ⟨hneeds, hnone⟩ := Element.mem_lacking_iff.mp hlacks
    exact ⟨e, .missingAttribute he hneeds hnone⟩
  · split at hp
    · next hnone =>
      obtain rfl := List.mem_singleton.mp hp
      refine ⟨_, .noTemplates fun e he htag => ?_⟩
      exact hasTemplate_iff.mpr ⟨e, he, htag⟩ hnone
    · have hcount := List.count_pos_iff.mpr hp
      obtain ⟨name, span, rfl⟩ | ⟨template, name, span, rfl⟩ := mem_repeatedNames hp
      · rw [count_repeatedNames_template, Element.repeatsAfter_nil, List.countP_pos_iff] at hcount
        obtain ⟨e, he, hspan⟩ := hcount
        obtain rfl := of_decide_eq_true hspan
        exact ⟨e, .duplicateTemplate he⟩
      · rw [count_repeatedNames_key, List.countP_pos_iff] at hcount
        obtain ⟨e, he, hspan⟩ := hcount
        obtain rfl := of_decide_eq_true hspan
        obtain ⟨t, ht, he⟩ := List.mem_flatMap.mp he
        exact ⟨e, .duplicateKey ht he⟩

lemma mem_of_mem_repeats {es : List Element} {name : String} (he : e ∈ Element.repeats es name) :
    e ∈ es :=
  List.mem_of_mem_filter (List.mem_of_mem_tail he)

lemma mem_elements_of_mem_descendants {t : Element} (ht : t ∈ d.elements)
    (he : e ∈ t.descendants) : e ∈ d.elements := by
  refine List.mem_cons_of_mem _ ?_
  rcases List.mem_cons.mp ht with rfl | ht
  · exact he
  · exact Element.mem_descendants_trans ht he

lemma mem_elements_of_mem_templates (he : e ∈ d.templates) : e ∈ d.elements :=
  List.mem_cons.mpr (tag_of_mem_templates he).1

lemma Blames.mem_elements (h : d.Blames p e) : e ∈ d.elements := by
  cases h with
  | missingAttribute he => exact he
  | duplicateTemplate he => exact mem_elements_of_mem_templates (mem_of_mem_repeats he)
  | @duplicateKey t _ _ _ ht he =>
    have hkey := mem_of_mem_repeats he
    rw [← Element.ownKeys_eq_reachedKeys] at hkey
    have hbelow := Element.mem_descendantsNamed_of_mem_ownKeys hkey
    rw [Element.mem_descendantsNamed_iff] at hbelow
    have htemplate := mem_elements_of_mem_templates (List.mem_of_mem_filter ht)
    exact mem_elements_of_mem_descendants htemplate hbelow.1
  | noTemplates => exact List.mem_cons_self

/-- The text of the element that a report on the problem should mark: its tag, or the whole of it if
it is a key that is there already. -/
def IsText (p : Problem) (e : Element) (text : List Char) : Prop :=
  match p with
  | .duplicateKey _ _ _ => ∃ f, parse (String.ofList text) = .ok ⟨f⟩ ∧ f.shift e.span.start = e
  | _ => text = e.tag.toList

/-- The problem is about the element, and it is placed at the text after `before`. -/
structure Locates (d : Document) (source : String) (p : Problem) (e : Element)
    (before text : List Char) : Prop where
  blames : d.Blames p e
  isText : IsText p e text
  begins : before ++ text <+: source.toList
  span_eq : p.span = ⟨byteSize before, byteSize before + byteSize text⟩

variable {source : String}

lemma Blames.exists_text (h : parse source = .ok d) (hblames : d.Blames p e) :
    ∃ text, text ≠ [] ∧ IsText p e text ∧ Occupies source p.span text := by
  have he := hblames.mem_elements
  have hne : e.tag.toList ≠ [] := by
    obtain ⟨word, hword, -⟩ := exists_word (nameToken_mem_tokens h he)
    have hsome := hword.ne_nil
    rwa [hword.eq_toList] at hsome
  cases hblames with
  | duplicateKey =>
    obtain ⟨content, f, hplace, hf, hshift⟩ := Document.exists_text h he
    exact ⟨_, by simp, ⟨f, hf, hshift⟩, hplace⟩
  | _ => exact ⟨_, hne, rfl, occupies_tag h he⟩

/-- **What the reports on a document mark.** Every problem is about an element, and its place in
bytes is that of the tag of the element, or of the whole of a key that is there already. The report
marks this text if and only if all is in ASCII up to the end of it. -/
theorem problems_located (h : parse source = .ok d) (hp : p ∈ d.problems) :
    ∃ e before text, d.Locates source p e before text ∧
      (p.report.Marks before text ↔ ∀ c ∈ before ++ text, c.toNat < 128) := by
  obtain ⟨e, hblames⟩ := exists_blames hp
  obtain ⟨text, hne, htext, before, after, hsource, hspan⟩ := hblames.exists_text h
  have hbegins : before ++ text <+: source.toList := ⟨after, hsource.symm⟩
  exact ⟨e, before, text, ⟨hblames, htext, hbegins, hspan⟩, Report.marks_iff_ascii hne hspan⟩

/-- The report on a document without templates marks the name of its outermost tag. -/
theorem problems_located_config : ∃ d, parse "<config/>" = .ok d ∧
    .noTemplates ⟨1, 7⟩ ∈ d.problems ∧ ∃ e before text,
      d.Locates "<config/>" (.noTemplates ⟨1, 7⟩) e before text ∧
      (Problem.noTemplates ⟨1, 7⟩).report.Marks before text := by
  have hparse : (parse "<config/>").toOption.any (·.problems.contains (.noTemplates ⟨1, 7⟩)) := by
    decide +kernel
  obtain ⟨d, hd, hcontains⟩ := exists_of_toOption_any hparse
  have hp := List.contains_iff_mem.mp hcontains
  obtain ⟨e, before, text, hlocates, hmarks⟩ := problems_located hd hp
  have hascii : ∀ c ∈ "<config/>".toList, c.toNat < 128 := by simp
  refine ⟨d, hd, hp, e, before, text, hlocates, hmarks.mpr fun c hc => hascii c ?_⟩
  exact hlocates.begins.subset hc

/-- A document with a letter of two bytes before an element that lacks an attribute. -/
def accentedSource : String := "<template name='é' desc='d'><folder name='a'/></template>"

/-- Reports do not always mark the right text: it is enough that there is one letter of two bytes
before it. -/
theorem not_all_problems_marked : ¬ ∀ (source : String) (d : Document) (p : Problem),
    parse source = .ok d → p ∈ d.problems → ∃ e before text,
      d.Locates source p e before text ∧ p.report.Marks before text := by
  intro h
  have hparse : (parse accentedSource).toOption.any
      (·.problems.contains (.missingAttribute "folder" "rename" ⟨30, 36⟩)) := by decide +kernel
  obtain ⟨d, hd, hcontains⟩ := exists_of_toOption_any hparse
  obtain ⟨e, before, text, hlocates, hmarks⟩ := h _ d _ hd (List.contains_iff_mem.mp hcontains)
  obtain ⟨hstart, hstop⟩ := Span.mk.inj hlocates.span_eq
  have hne : text ≠ [] := by
    rintro rfl
    rw [byteSize_nil] at hstop
    omega
  have hascii := (Report.marks_iff_ascii hne hlocates.span_eq).mp hmarks
  have hlength : (before ++ text).length = 36 := by
    rw [← (byteSize_eq_length_iff _).mpr hascii, byteSize_append, ← hstop]
  have htake := List.prefix_iff_eq_take.mp hlocates.begins
  rw [hlength] at htake
  have hmem : 'é' ∈ before ++ text := by
    rw [htake]
    decide +kernel
  exact absurd (hascii 'é' hmem) (by decide)

end Markup.Document

end Stencil

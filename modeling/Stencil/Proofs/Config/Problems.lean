import Mathlib.Data.List.Count
import Mathlib.Data.List.Infix
import Stencil.Proofs.Config.Loading
import Stencil.Proofs.Config.Nesting

/-!
Exactly what is wrong with a document.

A document has no problems if and only if its elements have the attributes that they need and its
names are distinct. Otherwise each attribute that an element lacks, each repeated name of a template
and each repeated name of a key is reported once, with its place.
-/

namespace Stencil

open Markup

lemma KeyKind.ofTag?_eq_some_iff {tag : String} {kind : KeyKind} :
    ofTag? tag = some kind ↔ tag = kind.tag := by
  constructor
  · intro h
    simpa [eq_comm] using List.find?_some h
  · rintro rfl
    exact ofTag?_tag kind

namespace Markup.Element

/-! ### Attributes -/

/-- The element must have the attribute. -/
inductive Requires (e : Element) : String → Prop
  /-- Every element of the tag must have it. -/
  | ofTag {attr : String} (h : attr ∈ requiredByTag e.tag) : Requires e attr
  /-- Every key of the kind must have it. -/
  | ofKind {kind : KeyKind} {attr : String} (htag : e.tag = "key")
    (htype : e.attr? "type" = some kind.tag) (h : attr ∈ kind.requiredAttributes) :
    Requires e attr
  /-- The user is asked about an input switch. -/
  | prompt (htag : e.tag = "switch") (htype : e.attr? "type" = some "input") :
    Requires e "prompt"

variable {e : Element} {attr : String}

lemma mem_requiredByType_iff : attr ∈ e.requiredByType ↔
    (e.tag = "key" ∧ ∃ kind, e.attr? "type" = some (KeyKind.tag kind) ∧
      attr ∈ kind.requiredAttributes) ∨
    e.tag = "switch" ∧ e.attr? "type" = some "input" ∧ attr = "prompt" := by
  unfold requiredByType
  split
  · next htag =>
    have hkind : ∀ kind, (e.attr? "type").bind KeyKind.ofTag? = some kind ↔
        e.attr? "type" = some kind.tag := by
      simp [Option.bind_eq_some_iff, KeyKind.ofTag?_eq_some_iff]
    have hno : "key" ≠ "switch" := by decide
    simp only [htag, hno, false_and, or_false, true_and, ← hkind]
    cases (e.attr? "type").bind KeyKind.ofTag? <;> simp
  · next htag => split <;> simp_all
  · next hkey hswitch => simp_all

lemma requires_iff : e.Requires attr ↔ attr ∈ requiredByTag e.tag ++ e.requiredByType := by
  rw [List.mem_append, mem_requiredByType_iff]
  constructor
  · rintro (h | ⟨htag, htype, h⟩ | ⟨htag, htype⟩)
    · exact .inl h
    · exact .inr (.inl ⟨htag, _, htype, h⟩)
    · exact .inr (.inr ⟨htag, htype, rfl⟩)
  · rintro (h | ⟨htag, kind, htype, h⟩ | ⟨htag, htype, rfl⟩)
    · exact .ofTag h
    · exact .ofKind htag htype h
    · exact .prompt htag htype

instance (e : Element) (attr : String) : Decidable (e.Requires attr) :=
  decidable_of_iff _ requires_iff.symm

/-- No attribute is required twice. -/
lemma nodup_required (e : Element) : (requiredByTag e.tag ++ e.requiredByType).Nodup := by
  unfold requiredByType
  split
  · next htag =>
    rw [htag]
    cases (e.attr? "type").bind KeyKind.ofTag? with
    | none => decide
    | some kind => cases kind <;> decide
  · next htag =>
    rw [htag]
    split <;> decide
  · rw [List.append_nil]
    unfold requiredByTag
    split <;> decide

lemma mem_lacking_iff : attr ∈ e.lacking ↔ e.Requires attr ∧ e.attr? attr = none := by
  rw [lacking, List.mem_filter, requires_iff, Bool.not_eq_true', ← Bool.not_eq_true, hasAttr_iff,
    Option.eq_none_iff_forall_ne_some, not_exists]

/-- Each attribute that an element lacks is reported once. -/
lemma count_problems (e : Element) (tag attr : String) (span : Span) :
    e.problems.count (.missingAttribute tag attr span) =
      if e.tag = tag ∧ e.name.span = span ∧ e.Requires attr ∧ e.attr? attr = none then 1
      else 0 := by
  have hnodup : e.problems.Nodup := by
    refine (e.nodup_required.filter _).map fun a b h => ?_
    injection h
  have hmem : .missingAttribute tag attr span ∈ e.problems ↔
      e.tag = tag ∧ e.name.span = span ∧ e.Requires attr ∧ e.attr? attr = none := by
    simp only [problems, List.mem_map, mem_lacking_iff, Problem.missingAttribute.injEq]
    constructor
    · rintro ⟨_, hlacks, htag, rfl, hspan⟩
      exact ⟨htag, hspan, hlacks⟩
    · rintro ⟨htag, hspan, hlacks⟩
      exact ⟨attr, hlacks, htag, rfl, hspan⟩
  rw [hnodup.count]
  simp only [hmem]

lemma mem_problems {e : Element} {p : Problem} (h : p ∈ e.problems) :
    ∃ tag attr span, p = .missingAttribute tag attr span := by
  obtain ⟨attr, -, rfl⟩ := List.mem_map.mp h
  exact ⟨_, _, _, rfl⟩

/-! ### Repeated names -/

/-- The elements of that name. -/
def named (es : List Element) (name : String) : List Element :=
  es.filter (·.attr? "name" = some name)

lemma named_cons {es : List Element} {name : String} :
    named (e :: es) name = (if e.attr? "name" = some name then [e] else []) ++ named es name := by
  rw [named, List.filter_cons]
  split <;> simp_all [named]

/-- The elements of that name that come after another one of that name. -/
def repeats (es : List Element) (name : String) : List Element := (named es name).tail

/-- The elements of that name whose name was seen before, or is that of an earlier element. -/
def repeatsAfter (seen : List String) (es : List Element) (name : String) : List Element :=
  if name ∈ seen then named es name else repeats es name

variable {seen : List String} {es : List Element} {name other : String}

lemma repeatsAfter_nil : repeatsAfter [] es name = repeats es name := rfl

lemma repeatsAfter_cons_of_none (h : e.attr? "name" = none) :
    repeatsAfter seen (e :: es) name = repeatsAfter seen es name := by
  simp [repeatsAfter, repeats, named, h]

/-- The name of an element is seen for the elements after it. -/
lemma repeatsAfter_cons_of_some (h : e.attr? "name" = some other) :
    repeatsAfter seen (e :: es) name =
      (if other = name ∧ name ∈ seen then [e] else []) ++ repeatsAfter (other :: seen) es name := by
  by_cases hname : other = name
  · subst hname
    by_cases hseen : other ∈ seen <;> simp [repeatsAfter, repeats, named, h, hseen]
  · simp [repeatsAfter, repeats, named, h, hname, Ne.symm hname]

lemma repeatsAfter_cons_of_mem (h : other ∈ seen) :
    repeatsAfter (other :: seen) es name = repeatsAfter seen es name := by
  have hmem : name ∈ other :: seen ↔ name ∈ seen := by
    rw [List.mem_cons, or_iff_right_of_imp]
    rintro rfl
    exact h
  simp only [repeatsAfter, hmem]

end Markup.Element

variable {seen : List String} {template : String}

lemma mem_repeatedKeys {keys : List Element} {p : Problem}
    (h : p ∈ repeatedKeys template seen keys) :
    ∃ name span, p = .duplicateKey template name span := by
  induction keys generalizing seen with
  | nil => simp [repeatedKeys] at h
  | cons key keys ih =>
    unfold repeatedKeys at h
    split at h
    · exact ih h
    · split at h
      · rcases List.mem_cons.mp h with rfl | h
        · exact ⟨_, _, rfl⟩
        · exact ih h
      · exact ih h

lemma count_repeatedKeys (keys : List Element) (name : String) (span : Span) :
    (repeatedKeys template seen keys).count (.duplicateKey template name span) =
      (Element.repeatsAfter seen keys name).countP (·.span = span) := by
  induction keys generalizing seen with
  | nil => simp [repeatedKeys, Element.repeatsAfter, Element.repeats, Element.named]
  | cons key keys ih =>
    unfold repeatedKeys
    cases hname : key.attr? "name" with
    | none => rw [Element.repeatsAfter_cons_of_none hname, ← ih]
    | some other =>
      rw [Element.repeatsAfter_cons_of_some hname, List.countP_append]
      -- a name that was seen before is reported, and not entered again
      by_cases hseen : other ∈ seen
      · rw [Element.repeatsAfter_cons_of_mem hseen, ← ih]
        by_cases hother : other = name
        · subst hother
          simp [hseen, List.count_cons, Nat.add_comm]
        · simp [hseen, hother]
      · have hnot : ¬ (other = name ∧ name ∈ seen) := by
          rintro ⟨rfl, hmem⟩
          exact hseen hmem
        simp [hseen, hnot, ih]

lemma count_repeatedNames_template (ts : List Element) (name : String) (span : Span) :
    (repeatedNames seen ts).count (.duplicateTemplate name span) =
      (Element.repeatsAfter seen ts name).countP (·.name.span = span) := by
  induction ts generalizing seen with
  | nil => simp [repeatedNames, Element.repeatsAfter, Element.repeats, Element.named]
  | cons t ts ih =>
    unfold repeatedNames
    cases hname : t.attr? "name" with
    | none => rw [Element.repeatsAfter_cons_of_none hname, ← ih]
    | some other =>
      -- the problems of its keys are of another kind
      have hkeys : (repeatedKeys other [] t.ownKeys).count (.duplicateTemplate name span) = 0 := by
        refine List.count_eq_zero_of_not_mem fun hmem => ?_
        obtain ⟨_, _, h⟩ := mem_repeatedKeys hmem
        cases h
      rw [Element.repeatsAfter_cons_of_some hname, List.countP_append, ← ih]
      simp only [List.count_append, hkeys, Nat.add_zero]
      congr 1
      by_cases hother : other = name
      · subst hother
        by_cases hseen : other ∈ seen <;> simp [hseen, List.count_singleton]
      · simp [hother, apply_ite]

lemma count_repeatedNames_key (ts : List Element) (name : String) (span : Span) :
    (repeatedNames seen ts).count (.duplicateKey template name span) =
      ((Element.named ts template).flatMap fun t => Element.repeats t.reachedKeys name).countP
        (·.span = span) := by
  induction ts generalizing seen with
  | nil => rfl
  | cons t ts ih =>
    unfold repeatedNames
    cases hname : t.attr? "name" with
    | none => rw [Element.named_cons, hname, if_neg (by simp), List.nil_append, ← ih]
    | some other =>
      have hcount : (repeatedKeys other [] t.ownKeys).count (.duplicateKey template name span) =
          ((if other = template then [t] else []).flatMap fun t =>
            Element.repeats t.reachedKeys name).countP (·.span = span) := by
        split
        · next h =>
          rw [h, count_repeatedKeys, Element.repeatsAfter_nil, Element.ownKeys_eq_reachedKeys,
            List.flatMap_singleton]
        · next h =>
          refine List.count_eq_zero_of_not_mem fun hmem => ?_
          obtain ⟨_, _, hkey⟩ := mem_repeatedKeys hmem
          injection hkey with htemplate
          exact h htemplate.symm
      have htemplate : (if other ∈ seen then [.duplicateTemplate other t.name.span] else []).count
          (Problem.duplicateKey template name span) = 0 := by
        split <;> simp
      simp only [Element.named_cons, hname, Option.some.injEq, List.flatMap_append,
        List.countP_append, List.count_append, htemplate, hcount, ih, Nat.zero_add]

lemma mem_repeatedNames {ts : List Element} {p : Problem} (h : p ∈ repeatedNames seen ts) :
    (∃ name span, p = .duplicateTemplate name span) ∨
      ∃ template name span, p = .duplicateKey template name span := by
  induction ts generalizing seen with
  | nil => simp [repeatedNames] at h
  | cons t ts ih =>
    unfold repeatedNames at h
    split at h
    · exact ih h
    · rcases List.mem_append.mp h with h | h
      · rcases List.mem_append.mp h with h | h
        · split at h
          · obtain rfl := List.mem_singleton.mp h
            exact .inl ⟨_, _, rfl⟩
          · exact absurd h List.not_mem_nil
        · exact .inr ⟨_, mem_repeatedKeys h⟩
      · exact ih h

namespace Markup.Document

/-- The elements of the document have what they need, and their names are distinct. -/
structure IsValid (d : Document) : Prop where
  complete : ∀ e ∈ d.elements, ∀ attr, e.Requires attr → ∃ value, e.attr? attr = some value
  hasTemplate : ∃ e ∈ d.elements, e.tag = "template"
  templateNames : (Element.names d.templates).Nodup
  keyNames : ∀ t ∈ d.templates, (Element.names t.reachedKeys).Nodup

lemma complete_iff {d : Document} : d.root.Sound ↔
    ∀ e ∈ d.elements, ∀ attr, e.Requires attr → ∃ value, e.attr? attr = some value := by
  simp only [Element.Sound, Element.lacking_eq_nil_iff, elements, List.mem_cons,
    Element.requires_iff, List.mem_append]

lemma hasTemplate_iff {d : Document} :
    d.templates ≠ [] ↔ ∃ e ∈ d.elements, e.tag = "template" := by
  unfold templates elements
  split
  · next htag => simp [htag]
  · next htag => simp [htag, Element.descendantsNamed]

/-- A template of a document that has all its attributes has a name. -/
lemma exists_name_of_sound {d : Document} (h : d.root.Sound) {t : Element} (ht : t ∈ d.templates) :
    (t.attr? "name").isSome := by
  obtain ⟨hmem, htag⟩ := tag_of_mem_templates ht
  refine Option.isSome_iff_exists.mpr (Element.lacking_eq_nil_iff.mp (h t hmem) "name" (.inl ?_))
  rw [htag]
  decide

lemma problems_eq_nil_iff_isValid {d : Document} : d.problems = [] ↔ d.IsValid := by
  rw [problems_eq_nil_iff, hasTemplate_iff]
  constructor
  · rintro ⟨hsound, htemplate, hnames, hkeys⟩
    refine ⟨complete_iff.mp hsound, htemplate, hnames, fun t ht => ?_⟩
    rw [← Element.ownKeys_eq_reachedKeys]
    exact hkeys t ht (exists_name_of_sound hsound ht)
  · rintro ⟨hcomplete, htemplate, hnames, hkeys⟩
    refine ⟨complete_iff.mpr hcomplete, htemplate, hnames, fun t ht _ => ?_⟩
    rw [Element.ownKeys_eq_reachedKeys]
    exact hkeys t ht

/-- A problem of the names is none of the attributes. -/
lemma count_problems_of_names {d : Document} {p : Problem}
    (h : ∀ tag attr span, p ≠ .missingAttribute tag attr span) : d.problems.count p =
      (if d.templates = [] then [.noTemplates d.root.name.span]
        else repeatedNames [] d.templates).count p := by
  rw [problems, List.count_append, List.count_eq_zero_of_not_mem, Nat.zero_add]
  rintro hmem
  obtain ⟨e, -, he⟩ := List.mem_flatMap.mp hmem
  obtain ⟨tag, attr, span, rfl⟩ := Element.mem_problems he
  exact h tag attr span rfl

lemma count_missingAttribute (d : Document) (tag attr : String) (span : Span) :
    d.problems.count (.missingAttribute tag attr span) =
      d.elements.countP fun e => e.tag = tag ∧ e.name.span = span ∧
        e.Requires attr ∧ e.attr? attr = none := by
  have hnames : (if d.templates = [] then [.noTemplates d.root.name.span]
      else repeatedNames [] d.templates).count (.missingAttribute tag attr span) = 0 := by
    split
    · simp
    · refine List.count_eq_zero_of_not_mem fun hmem => ?_
      obtain ⟨_, _, h⟩ | ⟨_, _, _, h⟩ := mem_repeatedNames hmem <;> cases h
  rw [problems, List.count_append, hnames, Nat.add_zero]
  induction d.elements with
  | nil => rfl
  | cons e es ih =>
    rw [List.flatMap_cons, List.count_append, ih, Element.count_problems, List.countP_cons,
      Nat.add_comm]
    simp only [decide_eq_true_eq]

/-- **Exactly what is wrong with a document.** A document has no problems if and only if it is
valid. Each attribute that an element lacks is reported once with the place of the name of its tag,
each template after another one of its name with the place of the name of its tag, each key after
another one of its name in a template with the place of the key, and that there are no templates
once with the place of the name of the outermost tag. -/
theorem problems_exact (d : Document) :
    (d.problems = [] ↔ d.IsValid) ∧
    (∀ tag attr span, d.problems.count (.missingAttribute tag attr span) =
      d.elements.countP fun e => e.tag = tag ∧ e.name.span = span ∧
        e.Requires attr ∧ e.attr? attr = none) ∧
    (∀ name span, d.problems.count (.duplicateTemplate name span) =
      (Element.repeats d.templates name).countP (·.name.span = span)) ∧
    (∀ template name span, d.problems.count (.duplicateKey template name span) =
      ((Element.named d.templates template).flatMap fun t =>
        Element.repeats t.reachedKeys name).countP (·.span = span)) ∧
    ∀ span, d.problems.count (.noTemplates span) =
      if (∀ e ∈ d.elements, e.tag ≠ "template") ∧ d.root.name.span = span then 1 else 0 := by
  refine ⟨problems_eq_nil_iff_isValid, count_missingAttribute d, fun name span => ?_,
    fun template name span => ?_, fun span => ?_⟩
  · rw [count_problems_of_names (by simp)]
    split
    · next h => simp [h, Element.repeats, Element.named]
    · rw [count_repeatedNames_template, Element.repeatsAfter_nil]
  · rw [count_problems_of_names (by simp)]
    split
    · next h => simp [h, Element.named]
    · rw [count_repeatedNames_key]
  · have hnone : (∀ e ∈ d.elements, e.tag ≠ "template") ↔ d.templates = [] := by
      rw [← not_iff_not, ← Ne, hasTemplate_iff]
      simp
    rw [count_problems_of_names (by simp)]
    simp only [hnone]
    split
    · next h => simp [h, List.count_singleton]
    · next h =>
      rw [if_neg fun hand => h hand.1]
      refine List.count_eq_zero_of_not_mem fun hmem => ?_
      obtain ⟨_, _, h⟩ | ⟨_, _, _, h⟩ := mem_repeatedNames hmem <;> cases h

end Markup.Document

end Stencil

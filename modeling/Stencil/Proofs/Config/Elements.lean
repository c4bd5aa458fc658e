import Stencil.Proofs.Except
import Stencil.Template.Validation

/-!
Elements of a document.

What is below an element is its children and what is below them. The keys of a template are found
on the way down without entering switches or keys. An element that lacks nothing has every
attribute that its tag requires.
-/

namespace Stencil.Markup.Element

/-- Induction over the children of elements. -/
theorem rec_children {motive : Element → Prop}
    (step : ∀ e : Element, (∀ c ∈ e.children, motive c) → motive e) : ∀ e, motive e
  | mk name attributes children span =>
    step (mk name attributes children span) fun c (_ : c ∈ children) => rec_children step c

variable {e f g : Element}

/-! ### Descendants -/

lemma mem_withDescendants_iff {es : List Element} :
    f ∈ withDescendants es ↔ ∃ c ∈ es, f = c ∨ f ∈ c.descendants := by
  induction es with
  | nil => simp [withDescendants]
  | cons c es ih =>
    rw [withDescendants, List.mem_cons, List.mem_append, ih]
    simp only [List.mem_cons, exists_eq_or_imp, or_assoc]

lemma mem_descendants_iff :
    f ∈ e.descendants ↔ ∃ c ∈ e.children, f = c ∨ f ∈ c.descendants := by
  obtain ⟨name, attributes, children, span⟩ := e
  rw [descendants]
  exact mem_withDescendants_iff

lemma mem_descendants_trans (hf : f ∈ e.descendants) (hg : g ∈ f.descendants) :
    g ∈ e.descendants := by
  induction e using rec_children with
  | step e ih =>
    obtain ⟨c, hc, rfl | hf⟩ := mem_descendants_iff.mp hf
    · exact mem_descendants_iff.mpr ⟨f, hc, .inr hg⟩
    · exact mem_descendants_iff.mpr ⟨c, hc, .inr (ih c hc hf)⟩

lemma mem_descendantsNamed_iff {tag : String} :
    f ∈ e.descendantsNamed tag ↔ f ∈ e.descendants ∧ f.tag = tag := by
  simp [descendantsNamed]

/-! ### Keys of a template -/

lemma mem_ownKeysOf_iff {es : List Element} :
    f ∈ ownKeysOf es ↔ ∃ c ∈ es, c.tag ≠ "switch" ∧
      if c.tag = "key" then f = c else f ∈ c.ownKeys := by
  induction es with
  | nil => simp [ownKeysOf]
  | cons c es ih =>
    rw [ownKeysOf, List.mem_append, ih]
    simp only [List.mem_cons, exists_eq_or_imp]
    by_cases hs : c.tag = "switch"
    · simp [hs]
    · by_cases hk : c.tag = "key" <;> simp [hs, hk]

lemma mem_ownKeys_iff :
    f ∈ e.ownKeys ↔ ∃ c ∈ e.children, c.tag ≠ "switch" ∧
      if c.tag = "key" then f = c else f ∈ c.ownKeys := by
  obtain ⟨name, attributes, children, span⟩ := e
  rw [ownKeys]
  exact mem_ownKeysOf_iff

/-- The keys of a template are key elements below it. -/
lemma mem_descendantsNamed_of_mem_ownKeys (hf : f ∈ e.ownKeys) : f ∈ e.descendantsNamed "key" := by
  rw [mem_descendantsNamed_iff]
  induction e using rec_children with
  | step e ih =>
    obtain ⟨c, hc, -, hf⟩ := mem_ownKeys_iff.mp hf
    split at hf
    · next hk =>
      subst hf
      exact ⟨mem_descendants_iff.mpr ⟨f, hc, .inl rfl⟩, hk⟩
    · obtain ⟨hmem, htag⟩ := ih c hc hf
      exact ⟨mem_descendants_iff.mpr ⟨c, hc, .inr hmem⟩, htag⟩

/-! ### Attributes -/

lemma hasAttr_iff {attr : String} : e.hasAttr attr ↔ ∃ value, e.attr? attr = some value := by
  rw [← Option.isSome_iff_exists, attr?, Option.isSome_map, hasAttr]

lemma need_eq_ok_iff {attr value : String} : e.need attr = .ok value ↔ e.attr? attr = some value := by
  unfold need
  cases e.attr? attr <;> simp

lemma lacking_eq_nil_iff :
    e.lacking = [] ↔ ∀ attr, attr ∈ requiredByTag e.tag ∨ attr ∈ e.requiredByType →
      ∃ value, e.attr? attr = some value := by
  simp only [lacking, List.filter_eq_nil_iff, List.mem_append, Bool.not_eq_eq_eq_not,
    Bool.not_true, Bool.not_eq_false, hasAttr_iff]

/-- Neither the element nor any element below it lacks an attribute. -/
def Sound (e : Element) : Prop := ∀ f, f = e ∨ f ∈ e.descendants → f.lacking = []

namespace Sound

lemma of_mem (h : e.Sound) (hf : f ∈ e.descendants) : f.Sound := by
  rintro g (rfl | hg)
  · exact h g (.inr hf)
  · exact h g (.inr (mem_descendants_trans hf hg))

lemma of_mem_named (h : e.Sound) {tag : String} (hf : f ∈ e.descendantsNamed tag) :
    f.Sound ∧ f.tag = tag := by
  obtain ⟨hmem, htag⟩ := mem_descendantsNamed_iff.mp hf
  exact ⟨h.of_mem hmem, htag⟩

lemma exists_attr? (h : e.Sound) {attr : String} (ha : attr ∈ requiredByTag e.tag) :
    ∃ value, e.attr? attr = some value :=
  lacking_eq_nil_iff.mp (h e (.inl rfl)) attr (.inl ha)

end Sound

end Stencil.Markup.Element

import Stencil.Proofs.Except
import Stencil.Proofs.Resolution.Table

/-!
What rules read and what they give.

A rule gives a value once everything that it refers to has one, and gives the same value ever
after. Which attributes and names it reads can be told from its key.
-/

namespace Stencil

namespace Key

lemma need_eq_ok_iff {k : Key} {attr value : String} :
    k.need attr = .ok value ↔ k.attr? attr = some value := by
  unfold need
  cases k.attr? attr <;> simp

/-- The names that the format of a key refers to, if a key of that kind has a format. -/
def referencesAs (k : Key) : KeyKind → List String
  | .value | .uuid | .input => []
  | _ => ((k.attr? "format").map Placeholder.references).getD []

end Key

namespace Placeholder

lemma mem_references {name text : String} :
    name ∈ references text ↔ Piece.placeholder name ∈ pieces text.toList := by
  simp only [references, mentions, List.mem_eraseDups, List.mem_filterMap]
  constructor
  · rintro ⟨piece, hp, hn⟩
    cases piece <;> simp_all [Piece.name?]
  · intro h
    exact ⟨_, h, rfl⟩

/-- Only the values of the names that a text refers to matter. -/
lemma substitute_congr {f g : String → Option String} {text : String}
    (h : ∀ n ∈ references text, f n = g n) : substitute f text = substitute g text := by
  unfold substitute
  congr 1
  refine List.map_congr_left fun piece hp => ?_
  cases piece with
  | char c => rfl
  | placeholder name => simp [Piece.fill, h name (mem_references.mpr hp)]

end Placeholder

namespace Rule

/-- The names that must have values before the rule gives one. -/
def references : Rule → List String
  | .constant _ => []
  | .identifier => []
  | .formatted format _ => Placeholder.references format

/-- How many identifiers the rule uses up. -/
def uses : Rule → Nat
  | .identifier => 1
  | _ => 0

/-- What the rule gives to `name` if no further name has to be computed. -/
def valueIn (ids : IdSource) (p : Progress) (name : String) : Rule → String
  | .constant value => value
  | .identifier => ids p.issued name
  | .formatted format transform =>
    transform.apply (Placeholder.substitute (p.values[·]?) format)

/-- The rule gives `value` to `name` on a table that has everything that it refers to. -/
def Gives (ids : IdSource) (values : Bindings) (name value : String) (rule : Rule) : Prop :=
  (∀ n ∈ rule.references, n ∈ values) ∧ ∃ i, value = rule.valueIn ids ⟨values, i⟩ name

variable {ids : IdSource} {k : Key} {kind : KeyKind} {rule : Rule}

lemma valueIn_congr {values values' : Bindings} {i : Nat} {name : String}
    (h : ∀ n ∈ rule.references, values[n]? = values'[n]?) :
    rule.valueIn ids ⟨values, i⟩ name = rule.valueIn ids ⟨values', i⟩ name := by
  cases rule with
  | constant value => rfl
  | identifier => rfl
  | formatted format transform =>
    exact congrArg transform.apply (Placeholder.substitute_congr h)

/-- What a rule gives does not change when further values are entered. -/
lemma Gives.extend {values earlier : Bindings} (h : values.Extends earlier) {name value : String}
    (hg : rule.Gives ids earlier name value) : rule.Gives ids values name value := by
  obtain ⟨hready, i, hv⟩ := hg
  refine ⟨fun n hn => h.mem (hready n hn), i, ?_⟩
  rw [hv]
  exact valueIn_congr fun n hn => (h.getElem?_eq (hready n hn)).symm

lemma references_ofKey (h : ofKey kind k = .ok rule) : rule.references = k.referencesAs kind := by
  cases kind <;>
    simp only [ofKey, bind_eq_ok_iff, Key.need_eq_ok_iff, pure, Except.pure, Except.ok.injEq] at h
  case input => simp at h
  case value =>
    obtain ⟨v, hv, rfl⟩ := h
    rfl
  case uuid =>
    subst h
    rfl
  case lowercase | uppercase | concatenate =>
    obtain ⟨format, hf, rfl⟩ := h
    simp [references, Key.referencesAs, hf]
  case replace =>
    obtain ⟨format, hf, -, -, -, -, rfl⟩ := h
    simp [references, Key.referencesAs, hf]
  case escape =>
    obtain ⟨format, hf, -, -, rfl⟩ := h
    simp [references, Key.referencesAs, hf]

/-- A computed key has a rule if and only if it has the attributes that its kind requires. -/
lemma exists_ofKey_iff (hkind : kind ≠ .input) :
    (∃ rule, ofKey kind k = .ok rule) ↔ ∀ attr ∈ kind.requiredAttributes, (k.attr? attr).isSome := by
  simp only [Option.isSome_iff_exists]
  cases kind <;>
    simp [ofKey, bind_eq_ok_iff, Key.need_eq_ok_iff, pure, Except.pure,
      KeyKind.requiredAttributes] at hkind ⊢

end Rule

end Stencil

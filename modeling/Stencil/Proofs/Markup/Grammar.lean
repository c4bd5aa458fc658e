import Mathlib.Data.List.Basic
import Stencil.Markup.Document

/-!
The grammar of documents.

A tree is written as tokens: `<`, its name and its attributes, and then either `/>`, which leaves
no room for children, or `>`, its children, and a closing tag of the same name. The same grammar
over tokens with places says which elements the tokens form, and where these elements are.
-/

namespace Stencil.Markup

/-! ### Trees -/

/-- An element without places. -/
inductive Tree where
  | mk (tag : String) (attributes : List (String × String)) (children : List Tree)

namespace Element

/-- The name and the value of an attribute. -/
def pair (a : Attribute) : String × String := (a.name.value, a.value.value)

mutual

/-- The element without its places. -/
def tree : Element → Tree
  | mk name attributes children _ => .mk name.value (attributes.map pair) (trees children)

def trees : List Element → List Tree
  | [] => []
  | e :: es => tree e :: trees es

end

end Element

/-- The tokens of the pairs of a start tag. -/
def pairTokens (pairs : List (String × String)) : List Token :=
  pairs.flatMap fun p => [.name p.1, .equals, .string p.2]

/-- The tokens are a way of writing the trees one after the other. -/
inductive Writes : List Tree → List Token → Prop
  | nil : Writes [] []
  /-- An element without children in one tag. -/
  | closed {tag : String} {pairs : List (String × String)} {ts : List Tree} {us : List Token}
    (hrest : Writes ts us) :
    Writes (.mk tag pairs [] :: ts) (.tagOpen :: .name tag :: pairTokens pairs ++ .selfClose :: us)
  /-- An element with its children between two tags. -/
  | paired {tag : String} {pairs : List (String × String)} {children ts : List Tree}
    {cs us : List Token} (hchildren : Writes children cs) (hrest : Writes ts us) :
    Writes (.mk tag pairs children :: ts)
      (.tagOpen :: .name tag :: pairTokens pairs ++ .tagClose :: cs ++
        .closeTagOpen :: .name tag :: .tagClose :: us)

/-! ### Elements -/

/-- A name as a token at its place. -/
def nameToken (name : Located String) : Located Token := ⟨.name name.value, name.span⟩

/-- A value as a token at its place. -/
def stringToken (value : Located String) : Located Token := ⟨.string value.value, value.span⟩

/-- The tokens form the attributes of a start tag. -/
inductive FormAttributes : List Attribute → List (Located Token) → Prop
  | nil : FormAttributes [] []
  | cons {a : Attribute} {as : List Attribute} {us : List (Located Token)} (equals : Span)
    (hrest : FormAttributes as us) :
    FormAttributes (a :: as) (nameToken a.name :: ⟨.equals, equals⟩ :: stringToken a.value :: us)

/-- The tokens form the elements one after the other. The place of an element goes from its `<` to
its last `>`. -/
inductive Form : List Element → List (Located Token) → Prop
  | nil : Form [] []
  | closed {name : Located String} {attributes : List Attribute} {as : List (Located Token)}
    {es : List Element} {us : List (Located Token)} (less close : Span)
    (hattributes : FormAttributes attributes as) (hrest : Form es us) :
    Form (.mk name attributes [] ⟨less.start, close.stop⟩ :: es)
      (⟨.tagOpen, less⟩ :: nameToken name :: as ++ ⟨.selfClose, close⟩ :: us)
  | paired {name : Located String} {attributes : List Attribute} {as : List (Located Token)}
    {children es : List Element} {cs us : List (Located Token)}
    (less greater less' name' close : Span) (hattributes : FormAttributes attributes as)
    (hchildren : Form children cs) (hrest : Form es us) :
    Form (.mk name attributes children ⟨less.start, close.stop⟩ :: es)
      (⟨.tagOpen, less⟩ :: nameToken name :: as ++ ⟨.tagClose, greater⟩ :: cs ++
        ⟨.closeTagOpen, less'⟩ :: nameToken ⟨name.value, name'⟩ :: ⟨.tagClose, close⟩ :: us)

lemma FormAttributes.append {as bs : List Attribute} {us vs : List (Located Token)}
    (h : FormAttributes as us) (h' : FormAttributes bs vs) :
    FormAttributes (as ++ bs) (us ++ vs) := by
  induction h with
  | nil => exact h'
  | cons equals _ ih => exact .cons equals ih

lemma Form.append {es fs : List Element} {us vs : List (Located Token)} (h : Form es us)
    (h' : Form fs vs) : Form (es ++ fs) (us ++ vs) := by
  induction h with
  | nil => exact h'
  | closed less close hattributes _ ih =>
    simpa using Form.closed less close hattributes ih
  | paired less greater less' name' close hattributes hchildren _ _ ih =>
    simpa using Form.paired less greater less' name' close hattributes hchildren ih

/-! ### Leaving out the places -/

/-- The tokens without their places. -/
def values (us : List (Located Token)) : List Token := us.map (·.value)

@[simp] lemma values_nil : values [] = [] := rfl

@[simp] lemma values_cons (u : Located Token) (us : List (Located Token)) :
    values (u :: us) = u.value :: values us := rfl

@[simp] lemma values_append (us vs : List (Located Token)) :
    values (us ++ vs) = values us ++ values vs := List.map_append

lemma values_placed (ts : List Token) (place : Span) : values (ts.map (⟨·, place⟩)) = ts := by
  simp [values, Function.comp_def]

lemma FormAttributes.values_eq {as : List Attribute} {us : List (Located Token)}
    (h : FormAttributes as us) : values us = pairTokens (as.map Element.pair) := by
  induction h with
  | nil => rfl
  | cons equals _ ih => simp [nameToken, stringToken, ih, pairTokens, Element.pair]

/-- Elements are written by the tokens that form them. -/
lemma Form.writes {es : List Element} {us : List (Located Token)} (h : Form es us) :
    Writes (Element.trees es) (values us) := by
  induction h with
  | nil => exact .nil
  | closed less close hattributes _ ih =>
    simpa [nameToken, hattributes.values_eq, Element.trees, Element.tree] using Writes.closed ih
  | paired less greater less' name' close hattributes _ _ ihc ih =>
    simpa [nameToken, hattributes.values_eq, Element.trees, Element.tree] using Writes.paired ihc ih

/-! ### Filling in the places -/

lemma values_eq_cons_iff {us : List (Located Token)} {w : Token} {ws : List Token} :
    values us = w :: ws ↔ ∃ place us', us = ⟨w, place⟩ :: us' ∧ values us' = ws := by
  simp only [values, List.map_eq_cons_iff]
  constructor
  · rintro ⟨⟨_, place⟩, us', rfl, rfl, rfl⟩
    exact ⟨place, us', rfl, rfl⟩
  · rintro ⟨place, us', rfl, rfl⟩
    exact ⟨_, us', rfl, rfl, rfl⟩

lemma values_eq_append_iff {us : List (Located Token)} {vs ws : List Token} :
    values us = vs ++ ws ↔ ∃ us₁ us₂, us = us₁ ++ us₂ ∧ values us₁ = vs ∧ values us₂ = ws :=
  List.map_eq_append_iff

lemma exists_formAttributes {pairs : List (String × String)} {us : List (Located Token)}
    (h : values us = pairTokens pairs) :
    ∃ as, FormAttributes as us ∧ as.map Element.pair = pairs := by
  induction pairs generalizing us with
  | nil =>
    obtain rfl : us = [] := List.map_eq_nil_iff.mp h
    exact ⟨[], .nil, rfl⟩
  | cons p pairs ih =>
    have hcons : pairTokens (p :: pairs) =
        .name p.1 :: .equals :: .string p.2 :: pairTokens pairs := rfl
    simp only [hcons, values_eq_cons_iff] at h
    obtain ⟨name, _, rfl, equals, _, rfl, value, us, rfl, hrest⟩ := h
    obtain ⟨as, has, rfl⟩ := ih hrest
    exact ⟨⟨⟨p.1, name⟩, ⟨p.2, value⟩⟩ :: as, .cons equals has, rfl⟩

/-- Whatever is written is formed, wherever the tokens stand. -/
lemma Writes.exists_form {ts : List Tree} {ws : List Token} (h : Writes ts ws)
    {us : List (Located Token)} (hus : values us = ws) :
    ∃ es, Form es us ∧ Element.trees es = ts := by
  induction h generalizing us with
  | nil =>
    obtain rfl : us = [] := List.map_eq_nil_iff.mp hus
    exact ⟨[], .nil, rfl⟩
  | @closed tag pairs ts ws _ ih =>
    simp only [values_eq_append_iff, values_eq_cons_iff] at hus
    obtain ⟨_, _, rfl, ⟨less, _, rfl, name, _, rfl, hpairs⟩, close, _, rfl, hrest⟩ := hus
    obtain ⟨as, has, rfl⟩ := exists_formAttributes hpairs
    obtain ⟨es, hes, rfl⟩ := ih hrest
    exact ⟨.mk ⟨tag, name⟩ as [] ⟨less.start, close.stop⟩ :: es, .closed less close has hes, rfl⟩
  | @paired tag pairs children ts cs ws _ _ ihc ih =>
    simp only [values_eq_append_iff, values_eq_cons_iff] at hus
    obtain ⟨_, _, rfl, ⟨_, _, rfl, ⟨less, _, rfl, name, _, rfl, hpairs⟩, greater, _, rfl, hcs⟩,
      less', _, rfl, name', _, rfl, close, _, rfl, hrest⟩ := hus
    obtain ⟨as, has, rfl⟩ := exists_formAttributes hpairs
    obtain ⟨children, hchildren, rfl⟩ := ihc hcs
    obtain ⟨es, hes, rfl⟩ := ih hrest
    exact ⟨.mk ⟨tag, name⟩ as children ⟨less.start, close.stop⟩ :: es,
      .paired less greater less' name' close has hchildren hes, rfl⟩

end Stencil.Markup

import Stencil.Config
import Stencil.Proofs.Config.Elements
import Stencil.Proofs.Markup.Places

/-!
Layout does not matter.

The checks and the registry ask for names, attributes and children of elements, and take places only
to report them. So two texts with the same tokens, however they are laid out, give the same registry
or fail for the same reasons.
-/

namespace Stencil

open Markup

namespace Markup.Element

/-! ### Elements without places -/

variable (e : Element)

@[simp] lemma tag_unplaced : e.unplaced.tag = e.tag := by cases e; rfl

@[simp] lemma name_unplaced : e.unplaced.name = e.name.unplaced := by cases e; rfl

@[simp] lemma span_unplaced : e.unplaced.span = .none := by cases e; rfl

@[simp] lemma attributes_unplaced :
    e.unplaced.attributes = e.attributes.map Attribute.unplaced := by cases e; rfl

@[simp] lemma attribute?_unplaced (name : String) :
    e.unplaced.attribute? name = (e.attribute? name).map Attribute.unplaced := by
  rw [attribute?, attributes_unplaced, List.find?_map]
  rfl

@[simp] lemma attr?_unplaced (name : String) : e.unplaced.attr? name = e.attr? name := by
  rw [attr?, attribute?_unplaced, Option.map_map]
  rfl

@[simp] lemma hasAttr_unplaced (name : String) : e.unplaced.hasAttr name = e.hasAttr name := by
  rw [hasAttr, attribute?_unplaced, Option.isSome_map]
  rfl

@[simp] lemma attributeMap_unplaced : e.unplaced.attributeMap = e.attributeMap := by
  rw [attributeMap, attributes_unplaced, List.map_map]
  rfl

mutual

lemma descendants_unplaced : ∀ e : Element, e.unplaced.descendants = e.descendants.map unplaced
  | mk name attributes children span => by
    rw [unplaced, descendants, descendants, withDescendants_unplaced children]

lemma withDescendants_unplaced : ∀ es : List Element,
    withDescendants (allUnplaced es) = (withDescendants es).map unplaced
  | [] => rfl
  | e :: es => by
    rw [allUnplaced, withDescendants, withDescendants, descendants_unplaced e,
      withDescendants_unplaced es, List.map_cons, List.map_append]

end

mutual

lemma ownKeys_unplaced : ∀ e : Element, e.unplaced.ownKeys = e.ownKeys.map unplaced
  | mk name attributes children span => by
    rw [unplaced, ownKeys, ownKeys, ownKeysOf_unplaced children]

lemma ownKeysOf_unplaced : ∀ es : List Element,
    ownKeysOf (allUnplaced es) = (ownKeysOf es).map unplaced
  | [] => rfl
  | e :: es => by
    rw [allUnplaced, ownKeysOf, ownKeysOf, List.map_append, tag_unplaced, ownKeys_unplaced e,
      ownKeysOf_unplaced es]
    by_cases hswitch : e.tag = "switch"
    · simp [hswitch]
    · by_cases hkey : e.tag = "key" <;> simp [hswitch, hkey]

end

lemma descendantsNamed_unplaced (tag : String) :
    e.unplaced.descendantsNamed tag = (e.descendantsNamed tag).map unplaced := by
  simp [descendantsNamed, descendants_unplaced, List.filter_map, Function.comp_def]

lemma need_unplaced (attr : String) : e.unplaced.need attr = e.need attr := by
  simp [need]

end Markup.Element

lemma Markup.Document.templates_unplaced (d : Document) :
    d.unplaced.templates = d.templates.map Element.unplaced := by
  unfold templates
  by_cases htag : d.root.tag = "template" <;>
    simp [unplaced, htag, Element.descendantsNamed_unplaced]

/-! ### Definitions -/

lemma mapM_unplaced {α ε : Type} {f : Element → Except ε α} (h : ∀ e, f e.unplaced = f e)
    (es : List Element) : (es.map Element.unplaced).mapM f = es.mapM f := by
  rw [List.mapM_map]
  exact congrArg es.mapM (funext h)

lemma Key.ofElement_unplaced (e : Element) : Key.ofElement e.unplaced = Key.ofElement e := by
  simp [Key.ofElement, Key.ofElement?]

lemma Case.ofElement_unplaced (e : Element) : Case.ofElement e.unplaced = Case.ofElement e := by
  simp only [Case.ofElement, e.need_unplaced, e.descendantsNamed_unplaced,
    mapM_unplaced Key.ofElement_unplaced]

lemma Switch.ofElement_unplaced (e : Element) :
    Switch.ofElement e.unplaced = Switch.ofElement e := by
  simp only [Switch.ofElement, e.need_unplaced, e.descendantsNamed_unplaced,
    mapM_unplaced Case.ofElement_unplaced, e.attr?_unplaced]

lemma Folder.ofElement_unplaced (e : Element) :
    Folder.ofElement e.unplaced = Folder.ofElement e := by
  simp only [Folder.ofElement, e.need_unplaced]

/-- A template is read in the same way without places. -/
lemma Template.ofElement_unplaced (e : Element) :
    Template.ofElement e.unplaced = Template.ofElement e := by
  simp only [Template.ofElement, e.need_unplaced, e.ownKeys_unplaced, e.descendantsNamed_unplaced,
    mapM_unplaced Key.ofElement_unplaced, mapM_unplaced Switch.ofElement_unplaced,
    mapM_unplaced Folder.ofElement_unplaced, e.attr?_unplaced]

lemma Registry.ofDocument_unplaced (d : Document) : ofDocument d.unplaced = ofDocument d := by
  simp only [ofDocument, d.templates_unplaced, List.foldlM_map, Template.ofElement_unplaced]

/-! ### Problems -/

def Problem.unplaced : Problem → Problem
  | missingAttribute tag attr _ => missingAttribute tag attr .none
  | duplicateTemplate name _ => duplicateTemplate name .none
  | duplicateKey template name _ => duplicateKey template name .none
  | noTemplates _ => noTemplates .none

lemma Markup.Element.lacking_unplaced (e : Element) : e.unplaced.lacking = e.lacking := by
  simp [lacking, requiredByType]

lemma Markup.Element.problems_unplaced (e : Element) :
    e.unplaced.problems = e.problems.map Problem.unplaced := by
  rw [problems, problems, e.lacking_unplaced, List.map_map, e.tag_unplaced, e.name_unplaced]
  rfl

lemma repeatedKeys_unplaced (template : String) (seen : List String) (keys : List Element) :
    repeatedKeys template seen (keys.map Element.unplaced) =
      (repeatedKeys template seen keys).map Problem.unplaced := by
  induction keys generalizing seen with
  | nil => rfl
  | cons key keys ih =>
    rw [List.map_cons, repeatedKeys, repeatedKeys, key.attr?_unplaced]
    cases key.attr? "name" with
    | none => exact ih seen
    | some name =>
      by_cases hseen : name ∈ seen
      · simp [hseen, ih, Problem.unplaced]
      · simp [hseen, ih]

lemma repeatedNames_unplaced (seen : List String) (ts : List Element) :
    repeatedNames seen (ts.map Element.unplaced) =
      (repeatedNames seen ts).map Problem.unplaced := by
  induction ts generalizing seen with
  | nil => rfl
  | cons t ts ih =>
    rw [List.map_cons, repeatedNames, repeatedNames, t.attr?_unplaced]
    cases t.attr? "name" with
    | none => exact ih seen
    | some name =>
      by_cases hseen : name ∈ seen <;>
        simp [hseen, ih, t.ownKeys_unplaced, repeatedKeys_unplaced, Problem.unplaced,
          Located.unplaced]

/-- The same is wrong with a document without its places. -/
lemma Markup.Document.problems_unplaced (d : Document) :
    d.unplaced.problems = d.problems.map Problem.unplaced := by
  have helements : d.unplaced.elements = d.elements.map Element.unplaced := by
    rw [elements, elements, unplaced, Element.descendants_unplaced, List.map_cons]
  unfold problems
  rw [helements, d.templates_unplaced, List.map_append, List.flatMap_map, List.map_flatMap]
  simp only [Element.problems_unplaced, List.map_eq_nil_iff]
  split
  · simp [unplaced, Problem.unplaced, Located.unplaced]
  · rw [repeatedNames_unplaced]

/-! ### Loading -/

namespace Config

/-- The error without the places in it. -/
def LoadError.unplaced : LoadError → LoadError
  | parse e => parse e.unplaced
  | invalid problems => invalid (problems.map Problem.unplaced)
  | template e => template e

/-- What loading makes of the outcome of reading. -/
def ofRead : Except SyntaxError Document → Except LoadError Registry
  | .error e => .error (.parse e)
  | .ok d =>
    if d.problems = [] then (Registry.ofDocument d).mapError .template
    else .error (.invalid d.problems)

lemma load_eq_ofRead (source : String) : load source = ofRead (Document.parse source) := by
  unfold load ofRead
  cases Document.parse source with
  | error e => rfl
  | ok d =>
    dsimp only
    cases hp : d.problems with
    | nil => cases Registry.ofDocument d <;> rfl
    | cons p ps => rfl

lemma ofRead_unplaced (x : Except SyntaxError Document) :
    ofRead (unplacedResult Document.unplaced x) = (ofRead x).mapError LoadError.unplaced := by
  cases x with
  | error e => rfl
  | ok d =>
    change (if d.unplaced.problems = [] then _ else _) = Except.mapError _ (if _ then _ else _)
    rw [d.problems_unplaced, Registry.ofDocument_unplaced]
    by_cases hp : d.problems = []
    · simp only [hp, List.map_nil, if_true]
      cases Registry.ofDocument d <;> rfl
    · simp only [List.map_eq_nil_iff, hp, if_false]
      rfl

/-- **Layout does not matter.** Texts with the same tokens give the same registry, or fail at the
same layer with the same errors in the same order, when the places in the errors are left out. -/
theorem load_eq_of_values_eq {source source' : String}
    (h : values (tokens source) = values (tokens source')) :
    (load source).mapError LoadError.unplaced = (load source').mapError LoadError.unplaced := by
  calc (load source).mapError LoadError.unplaced
      = ofRead (unplacedResult Document.unplaced (Document.parse source)) := by
        rw [load_eq_ofRead, ofRead_unplaced]
    _ = ofRead (unplacedResult Document.unplaced (Document.parse source')) := by
        rw [Document.parse_unplaced, Document.parse_unplaced, h]
    _ = (load source').mapError LoadError.unplaced := by
        rw [load_eq_ofRead source', ofRead_unplaced]

/-- A comment, other quotes and an entity move what is wrong to another place. -/
theorem load_moved :
    values (tokens "<template name='a&apos;'/>") =
      values (tokens "<!-- a --><template\tname=\"a'\" />") ∧
    (load "<template name='a&apos;'/>").mapError LoadError.unplaced =
      (load "<!-- a --><template\tname=\"a'\" />").mapError LoadError.unplaced := by
  have h : values (tokens "<template name='a&apos;'/>") =
      values (tokens "<!-- a --><template\tname=\"a'\" />") := by decide +kernel
  exact ⟨h, load_eq_of_values_eq h⟩

end Config

end Stencil

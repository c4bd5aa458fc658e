import Stencil.Config
import Stencil.Proofs.Config.Construction

/-!
Loading a config document.

The checks and the registry go through a document separately, and agree: a document without
problems can be registered. A registry that is loaded has one template for each template element of
its document, in the same order, and neither its templates nor the keys of any of them share a name.
-/

namespace Stencil

open Markup

/-! ### Repeated names -/

/-- The names are distinct, and none of them was seen before. -/
def Fresh (seen names : List String) : Prop := names.Nodup ∧ ∀ n ∈ names, n ∉ seen

lemma fresh_nil_left {names : List String} : Fresh [] names ↔ names.Nodup := by
  simp [Fresh]

lemma fresh_cons {seen names : List String} {name : String} :
    Fresh seen (name :: names) ↔ name ∉ seen ∧ Fresh (name :: seen) names := by
  unfold Fresh
  rw [List.nodup_cons, List.forall_mem_cons]
  constructor
  · rintro ⟨⟨hname, hnodup⟩, hseen, hall⟩
    refine ⟨hseen, hnodup, fun n hn hmem => ?_⟩
    rcases List.mem_cons.mp hmem with rfl | hmem
    · exact hname hn
    · exact hall n hn hmem
  · rintro ⟨hseen, hnodup, hall⟩
    exact ⟨⟨fun hn => hall name hn List.mem_cons_self, hnodup⟩, hseen,
      fun n hn hmem => hall n hn (List.mem_cons_of_mem _ hmem)⟩

lemma repeatedKeys_eq_nil_iff {template : String} {seen : List String} {keys : List Element} :
    repeatedKeys template seen keys = [] ↔ Fresh seen (Element.names keys) := by
  induction keys generalizing seen with
  | nil => simp [repeatedKeys, Fresh]
  | cons key keys ih =>
    unfold repeatedKeys
    cases hname : key.attr? "name" with
    | none => rw [Element.names_cons_of_none hname, ih]
    | some name =>
      rw [Element.names_cons_of_some hname, fresh_cons, ← ih]
      by_cases hseen : name ∈ seen <;> simp [hseen]

lemma repeatedNames_eq_nil_iff {seen : List String} {ts : List Element} :
    repeatedNames seen ts = [] ↔ Fresh seen (Element.names ts) ∧
      ∀ t ∈ ts, (t.attr? "name").isSome → (Element.names t.ownKeys).Nodup := by
  induction ts generalizing seen with
  | nil => simp [repeatedNames, Fresh]
  | cons t ts ih =>
    unfold repeatedNames
    rw [List.forall_mem_cons]
    cases hname : t.attr? "name" with
    | none =>
      rw [Element.names_cons_of_none hname]
      simpa using ih
    | some name =>
      rw [Element.names_cons_of_some hname, fresh_cons]
      simp only [List.append_eq_nil_iff, ih, repeatedKeys_eq_nil_iff, fresh_nil_left,
        Option.isSome_some, forall_const, ite_eq_right_iff, List.cons_ne_nil, imp_false]
      tauto

lemma problems_eq_nil_iff {d : Document} :
    d.problems = [] ↔ d.root.Sound ∧ d.templates ≠ [] ∧ (Element.names d.templates).Nodup ∧
      ∀ t ∈ d.templates, (t.attr? "name").isSome → (Element.names t.ownKeys).Nodup := by
  have hsound : d.elements.flatMap Element.problems = [] ↔ d.root.Sound := by
    simp [Document.elements, Element.problems, Element.Sound, List.flatMap_eq_nil_iff]
  unfold Document.problems
  rw [List.append_eq_nil_iff, hsound]
  split
  · next hnone => simp [hnone]
  · next hsome => rw [repeatedNames_eq_nil_iff, fresh_nil_left, and_iff_right hsome]

/-! ### Registration -/

namespace Registry

lemma register_eq_ok_iff {r r' : Registry} {t : Template} :
    r.register t = .ok r' ↔ t.name ∉ r.names ∧ r' = ⟨r.templates ++ [t]⟩ := by
  have hcontains : r.contains t.name ↔ t.name ∈ r.names := by simp [contains, names]
  unfold register
  split
  · next hmem => simp [hcontains.mp hmem]
  · next hnew =>
    constructor
    · intro h
      exact ⟨mt hcontains.mpr hnew, (Except.ok.inj h).symm⟩
    · rintro ⟨-, rfl⟩
      rfl

/-- Templates are registered one after the other if they can be read and their names are new. -/
lemma foldlM_register_eq_ok_iff {es : List Element} {r r' : Registry} :
    es.foldlM (fun r e => do r.register (← Template.ofElement e)) r = .ok r' ↔
      ∃ ts, List.Forall₂ (fun e t => Template.ofElement e = .ok t) es ts ∧
        Fresh r.names (ts.map (·.name)) ∧ r' = ⟨r.templates ++ ts⟩ := by
  induction es generalizing r with
  | nil =>
    constructor
    · intro h
      obtain rfl := Except.ok.inj h
      exact ⟨[], .nil, by simp [Fresh], by simp⟩
    · rintro ⟨ts, hts, -, rfl⟩
      obtain rfl := List.forall₂_nil_left_iff.mp hts
      simp [pure, Except.pure]
  | cons e es ih =>
    have hsplit : ∀ (t : Template) (ts : List Template), Fresh r.names ((t :: ts).map (·.name)) ↔
        t.name ∉ r.names ∧
          Fresh (names ⟨r.templates ++ [t]⟩) (ts.map (·.name)) := by
      intro t ts
      have hmem : ∀ n, n ∈ t.name :: r.names ↔ n ∈ names ⟨r.templates ++ [t]⟩ := by
        simp [names, or_comm]
      rw [List.map_cons, fresh_cons, Fresh, Fresh]
      simp only [hmem]
    rw [List.foldlM_cons, bind_eq_ok_iff]
    simp only [bind_eq_ok_iff, register_eq_ok_iff, ih]
    constructor
    · rintro ⟨_, ⟨t, ht, hnew, rfl⟩, ts, hts, hfresh, rfl⟩
      exact ⟨t :: ts, .cons ht hts, (hsplit t ts).mpr ⟨hnew, hfresh⟩, by simp⟩
    · rintro ⟨ts, hts, hfresh, rfl⟩
      obtain ⟨t, ts, ht, hrest, rfl⟩ := List.forall₂_cons_left_iff.mp hts
      obtain ⟨hnew, hfresh⟩ := (hsplit t ts).mp hfresh
      exact ⟨_, ⟨t, ht, hnew, rfl⟩, ts, hrest, hfresh, by simp⟩

/-- A registry is that of a document if it has the templates of the document, under distinct
names. -/
lemma ofDocument_eq_ok_iff {d : Document} {r : Registry} :
    ofDocument d = .ok r ↔
      List.Forall₂ (fun e t => Template.ofElement e = .ok t) d.templates r.templates ∧
        r.names.Nodup := by
  have hempty : empty.names = [] := rfl
  unfold ofDocument
  rw [foldlM_register_eq_ok_iff, hempty]
  simp only [fresh_nil_left]
  constructor
  · rintro ⟨ts, hts, hnodup, rfl⟩
    exact ⟨hts, hnodup⟩
  · rintro ⟨hts, hnodup⟩
    exact ⟨r.templates, hts, hnodup, rfl⟩

end Registry

/-! ### Loading -/

lemma tag_of_mem_templates {d : Document} {e : Element} (he : e ∈ d.templates) :
    (e = d.root ∨ e ∈ d.root.descendants) ∧ e.tag = "template" := by
  unfold Document.templates at he
  split at he
  · next htag =>
    obtain rfl := List.mem_singleton.mp he
    exact ⟨.inl rfl, htag⟩
  · obtain ⟨hmem, htag⟩ := Element.mem_descendantsNamed_iff.mp he
    exact ⟨.inr hmem, htag⟩

lemma Registry.names_of_ofDocument {d : Document} {r : Registry}
    (h : List.Forall₂ (fun e t => Template.ofElement e = .ok t) d.templates r.templates) :
    r.names = Element.names d.templates :=
  Element.map_eq_names (h.imp fun _ _ ht => (Template.ofElement_eq_ok_iff.mp ht).1)

/-- **A document without problems can be registered.** -/
theorem exists_ofDocument {d : Document} (h : d.problems = []) :
    ∃ r, Registry.ofDocument d = .ok r := by
  obtain ⟨hsound, -, hnames, -⟩ := problems_eq_nil_iff.mp h
  have hread : ∀ e ∈ d.templates, ∃ t, Template.ofElement e = .ok t := by
    intro e he
    obtain ⟨rfl | hmem, htag⟩ := tag_of_mem_templates he
    · exact Template.exists_ofElement hsound htag
    · exact Template.exists_ofElement (hsound.of_mem hmem) htag
  obtain ⟨ts, hts⟩ := exists_mapM_ok hread
  have hts := mapM_eq_ok_iff.mp hts
  refine ⟨⟨ts⟩, Registry.ofDocument_eq_ok_iff.mpr ⟨hts, ?_⟩⟩
  rwa [Registry.names_of_ofDocument hts]

namespace Config

lemma load_eq_ok_iff {source : String} {r : Registry} :
    load source = .ok r ↔ ∃ d, Document.parse source = .ok d ∧ d.problems = [] ∧
      Registry.ofDocument d = .ok r := by
  unfold load
  cases Document.parse source with
  | error e => simp
  | ok d =>
    simp only [Except.ok.injEq, exists_eq_left']
    cases hp : d.problems with
    | nil => cases Registry.ofDocument d <;> simp
    | cons p ps => simp

/-- The document of a text that is given by its characters. -/
lemma parse_ofList (cs : List Char) : Document.parse (String.ofList cs) =
    Document.ofTokens (byteSize cs) (Markup.placeTokens 0 (Markup.lexemes cs)) := by
  simp only [Document.parse, Markup.tokens, String.toList_ofList]

lemma load_ne_template (source : String) (e : TemplateError) :
    load source ≠ .error (.template e) := by
  unfold load
  cases Document.parse source with
  | error e => simp
  | ok d =>
    dsimp only
    cases hp : d.problems with
    | nil =>
      obtain ⟨r, hr⟩ := exists_ofDocument hp
      simp [hr]
    | cons p ps => simp

/-- The keys of a template that is registered have distinct names, since those of its element do. -/
lemma keyNames_nodup_of_load {d : Document} (hp : d.problems = []) {r : Registry}
    (h : List.Forall₂ (fun e t => Template.ofElement e = .ok t) d.templates r.templates)
    {t : Template} (ht : t ∈ r.templates) : t.keyNames.Nodup := by
  obtain ⟨-, -, -, hkeys⟩ := problems_eq_nil_iff.mp hp
  obtain ⟨e, he, hread⟩ := exists_mem_of_forall₂ h ht
  have hname := (Template.ofElement_eq_ok_iff.mp hread).1
  rw [Template.keyNames_of_ofElement hread]
  exact hkeys e he (by simp [hname])

/-- **The checks and the registry agree.** Every document without problems can be registered, so
that loading never fails for a template; and a registry that is loaded has one template for each
template element, in order, with distinct names, and distinct names of keys in each of them. -/
theorem load_registers :
    (∀ d : Document, d.problems = [] → ∃ r, Registry.ofDocument d = .ok r) ∧
    ∀ source : String, (∀ e, load source ≠ .error (.template e)) ∧
      ∀ r, load source = .ok r → ∃ d, Document.parse source = .ok d ∧ r.templates ≠ [] ∧
        List.Forall₂ (fun e t => Template.ofElement e = .ok t) d.templates r.templates ∧
        r.names.Nodup ∧ ∀ t ∈ r.templates, t.keyNames.Nodup := by
  refine ⟨fun d => exists_ofDocument, fun source => ⟨load_ne_template source, fun r h => ?_⟩⟩
  obtain ⟨d, hparse, hp, hr⟩ := load_eq_ok_iff.mp h
  obtain ⟨hts, hnodup⟩ := Registry.ofDocument_eq_ok_iff.mp hr
  obtain ⟨-, hsome, -, -⟩ := problems_eq_nil_iff.mp hp
  refine ⟨d, hparse, fun hnil => hsome ?_, hts, hnodup, fun t => keyNames_nodup_of_load hp hts⟩
  rwa [hnil, List.forall₂_nil_right_iff] at hts

/-- Two templates, one of which lies in the other, with keys in a group and in a switch. -/
def nestedSource : String :=
  "<config><template name='outer' desc='both'><group><key name='a' type='uuid'/></group>" ++
  "<switch name='s' type='x'><case name='c'><key name='a' type='value' value='1'/></case></switch>" ++
  "<template name='inner' desc='one'><key name='b' type='uuid'/></template></template></config>"

lemma isOk_load_nestedSource : (load nestedSource).isOk := by
  have hchars : nestedSource = String.ofList _ ++ String.ofList _ ++ String.ofList _ := rfl
  rw [load, hchars, ← String.ofList_append, ← String.ofList_append, parse_ofList]
  decide +kernel

theorem load_nestedSource : ∃ r, load nestedSource = .ok r ∧ r.templates ≠ [] ∧
    r.names.Nodup ∧ ∀ t ∈ r.templates, t.keyNames.Nodup := by
  obtain ⟨r, h⟩ := isOk_iff.mp isOk_load_nestedSource
  obtain ⟨-, -, hsome, -, hnames, hkeys⟩ := (load_registers.2 nestedSource).2 r h
  exact ⟨r, h, hsome, hnames, hkeys⟩

end Config

end Stencil

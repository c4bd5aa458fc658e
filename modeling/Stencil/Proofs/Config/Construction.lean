import Stencil.Proofs.Config.Elements
import Stencil.Proofs.Resolution.Session

/-!
Reading definitions from elements.

A definition can be read if and only if its element and the elements of its parts have the
attributes that are written into it. From a template element of which nothing lacks an attribute a
template can be read, and the names of its keys are those of the key elements.
-/

namespace Stencil

open Markup

variable {e : Element}

/-! ### What is read -/

lemma Key.ofElement_eq_ok_iff {k : Key} :
    Key.ofElement e = .ok k ↔ e.attr? "name" = some k.name ∧ e.attr? "type" = some k.typeTag ∧
      (e.attributeMap.erase "name").erase "type" = k.attributes := by
  obtain ⟨name, typeTag, attributes⟩ := k
  unfold Key.ofElement Key.ofElement?
  cases e.attr? "name" <;> cases e.attr? "type" <;> simp

lemma Case.ofElement_eq_ok_iff {c : Case} :
    Case.ofElement e = .ok c ↔ e.attr? "name" = some c.name ∧
      (e.descendantsNamed "key").mapM Key.ofElement = .ok c.overrides := by
  obtain ⟨name, overrides⟩ := c
  simp [Case.ofElement, bind_eq_ok_iff, Element.need_eq_ok_iff, pure, Except.pure]

lemma Switch.ofElement_eq_ok_iff {s : Switch} :
    Switch.ofElement e = .ok s ↔ e.attr? "name" = some s.name ∧ e.attr? "type" = some s.typeTag ∧
      (e.descendantsNamed "case").mapM Case.ofElement = .ok s.cases ∧
      e.attr? "prompt" = s.prompt? := by
  obtain ⟨name, typeTag, prompt, cases⟩ := s
  simp [Switch.ofElement, bind_eq_ok_iff, Element.need_eq_ok_iff, pure, Except.pure]

lemma Folder.ofElement_eq_ok_iff {f : Folder} :
    Folder.ofElement e = .ok f ↔
      e.attr? "name" = some f.source ∧ e.attr? "rename" = some f.rename := by
  obtain ⟨source, rename⟩ := f
  simp [Folder.ofElement, bind_eq_ok_iff, Element.need_eq_ok_iff, pure, Except.pure]

lemma Template.ofElement_eq_ok_iff {t : Template} :
    Template.ofElement e = .ok t ↔ e.attr? "name" = some t.name ∧
      e.ownKeys.mapM Key.ofElement = .ok t.keys ∧
      (e.descendantsNamed "switch").mapM Switch.ofElement = .ok t.switches ∧
      (e.descendantsNamed "folder").mapM Folder.ofElement = .ok t.folders ∧
      (e.attr? "desc").getD "" = t.description := by
  obtain ⟨name, description, keys, switches, folders⟩ := t
  simp [Template.ofElement, bind_eq_ok_iff, Element.need_eq_ok_iff, pure, Except.pure]

/-! ### What can be read -/

lemma Key.exists_ofElement (h : e.Sound) (htag : e.tag = "key") :
    ∃ k, Key.ofElement e = .ok k := by
  obtain ⟨name, hname⟩ := h.exists_attr? (by simp [htag, requiredByTag] : "name" ∈ _)
  obtain ⟨typeTag, htype⟩ := h.exists_attr? (by simp [htag, requiredByTag] : "type" ∈ _)
  exact ⟨⟨name, typeTag, _⟩, ofElement_eq_ok_iff.mpr ⟨hname, htype, rfl⟩⟩

lemma Case.exists_ofElement (h : e.Sound) (htag : e.tag = "case") :
    ∃ c, Case.ofElement e = .ok c := by
  obtain ⟨name, hname⟩ := h.exists_attr? (by simp [htag, requiredByTag] : "name" ∈ _)
  obtain ⟨keys, hkeys⟩ := exists_mapM_ok fun f (hf : f ∈ e.descendantsNamed "key") =>
    Key.exists_ofElement (h.of_mem_named hf).1 (h.of_mem_named hf).2
  exact ⟨⟨name, keys⟩, ofElement_eq_ok_iff.mpr ⟨hname, hkeys⟩⟩

lemma Switch.exists_ofElement (h : e.Sound) (htag : e.tag = "switch") :
    ∃ s, Switch.ofElement e = .ok s := by
  obtain ⟨name, hname⟩ := h.exists_attr? (by simp [htag, requiredByTag] : "name" ∈ _)
  obtain ⟨typeTag, htype⟩ := h.exists_attr? (by simp [htag, requiredByTag] : "type" ∈ _)
  obtain ⟨cases, hcases⟩ := exists_mapM_ok fun f (hf : f ∈ e.descendantsNamed "case") =>
    Case.exists_ofElement (h.of_mem_named hf).1 (h.of_mem_named hf).2
  exact ⟨⟨name, typeTag, _, cases⟩, ofElement_eq_ok_iff.mpr ⟨hname, htype, hcases, rfl⟩⟩

lemma Folder.exists_ofElement (h : e.Sound) (htag : e.tag = "folder") :
    ∃ f, Folder.ofElement e = .ok f := by
  obtain ⟨source, hsource⟩ := h.exists_attr? (by simp [htag, requiredByTag] : "name" ∈ _)
  obtain ⟨rename, hrename⟩ := h.exists_attr? (by simp [htag, requiredByTag] : "rename" ∈ _)
  exact ⟨⟨source, rename⟩, ofElement_eq_ok_iff.mpr ⟨hsource, hrename⟩⟩

/-- **A template can be read** from a template element if nothing of it lacks an attribute. -/
theorem Template.exists_ofElement (h : e.Sound) (htag : e.tag = "template") :
    ∃ t, Template.ofElement e = .ok t := by
  obtain ⟨name, hname⟩ := h.exists_attr? (by simp [htag, requiredByTag] : "name" ∈ _)
  obtain ⟨keys, hkeys⟩ := exists_mapM_ok fun f (hf : f ∈ e.ownKeys) =>
    have hf := h.of_mem_named (Element.mem_descendantsNamed_of_mem_ownKeys hf)
    Key.exists_ofElement hf.1 hf.2
  obtain ⟨switches, hswitches⟩ := exists_mapM_ok fun f (hf : f ∈ e.descendantsNamed "switch") =>
    Switch.exists_ofElement (h.of_mem_named hf).1 (h.of_mem_named hf).2
  obtain ⟨folders, hfolders⟩ := exists_mapM_ok fun f (hf : f ∈ e.descendantsNamed "folder") =>
    Folder.exists_ofElement (h.of_mem_named hf).1 (h.of_mem_named hf).2
  exact ⟨⟨name, _, keys, switches, folders⟩,
    ofElement_eq_ok_iff.mpr ⟨hname, hkeys, hswitches, hfolders, rfl⟩⟩

/-! ### Names -/

namespace Markup.Element

/-- The names that elements have, in order. -/
def names (es : List Element) : List String := es.filterMap (·.attr? "name")

@[simp] lemma names_nil : names [] = [] := rfl

lemma names_cons_of_none {es : List Element} (h : e.attr? "name" = none) :
    names (e :: es) = names es := by
  rw [names, List.filterMap_cons, h]
  rfl

lemma names_cons_of_some {es : List Element} {name : String} (h : e.attr? "name" = some name) :
    names (e :: es) = name :: names es := by
  rw [names, List.filterMap_cons, h]
  rfl

lemma map_eq_names {α : Type} {name : α → String} {es : List Element} {as : List α}
    (h : List.Forall₂ (fun e a => e.attr? "name" = some (name a)) es as) :
    as.map name = names es :=
  (forall₂_eq_some_iff.mp (List.forall₂_map_right_iff.mpr h)).2

end Markup.Element

lemma Template.keyNames_of_ofElement {t : Template} (h : Template.ofElement e = .ok t) :
    t.keyNames = Element.names e.ownKeys := by
  obtain ⟨-, hkeys, -⟩ := ofElement_eq_ok_iff.mp h
  exact Element.map_eq_names
    ((mapM_eq_ok_iff.mp hkeys).imp fun _ _ hk => (Key.ofElement_eq_ok_iff.mp hk).1)

end Stencil

import Stencil.Proofs.Config.Elements

/-!
What lies between two elements.

Everything below an element is listed with the tags of the elements in between. The keys of a
template are the key elements below it with neither a switch nor another key in between.
-/

namespace Stencil.Markup.Element

/-! ### Nested elements -/

mutual

/-- All elements below this one, in document order, each with the tags of the elements in between,
the outermost first. -/
def nested : Element → List (List String × Element)
  | mk _ _ children _ => nestedOf children

/-- The elements of a list, each followed by all elements below it. -/
def nestedOf : List Element → List (List String × Element)
  | [] => []
  | e :: es => ([], e) :: (nested e).map (Prod.map (e.tag :: ·) id) ++ nestedOf es

end

mutual

lemma map_snd_nested : ∀ e : Element, e.nested.map Prod.snd = e.descendants
  | mk _ _ children _ => by
    rw [nested, descendants]
    exact map_snd_nestedOf children

lemma map_snd_nestedOf : ∀ es : List Element, (nestedOf es).map Prod.snd = withDescendants es
  | [] => rfl
  | e :: es => by
    rw [nestedOf, withDescendants, ← map_snd_nested e, ← map_snd_nestedOf es]
    simp

end

/-! ### Keys that are reached -/

/-- A key element, with neither a switch nor another key in between. -/
def IsReached (p : List String × Element) : Prop :=
  p.2.tag = "key" ∧ "switch" ∉ p.1 ∧ "key" ∉ p.1

instance (p : List String × Element) : Decidable (IsReached p) :=
  inferInstanceAs (Decidable (_ ∧ _))

/-- The key elements below this one that are reached without entering a switch or a key. -/
def reachedKeys (e : Element) : List Element := (e.nested.filter IsReached).map Prod.snd

/-- What is reached below an element, seen from above it. -/
lemma filter_isReached_map (e : Element) (ps : List (List String × Element)) :
    ((ps.map (Prod.map (e.tag :: ·) id)).filter IsReached).map Prod.snd =
      if e.tag = "switch" ∨ e.tag = "key" then [] else (ps.filter IsReached).map Prod.snd := by
  have hmap : ∀ p : List String × Element, IsReached (Prod.map (e.tag :: ·) id p) ↔
      ¬ (e.tag = "switch" ∨ e.tag = "key") ∧ IsReached p := by
    rintro ⟨tags, f⟩
    simp only [IsReached, Prod.map_apply, id_eq, List.mem_cons, not_or, eq_comm (a := e.tag)]
    tauto
  rw [List.filter_map, List.map_map]
  split
  · next h => simp [Function.comp_def, hmap, h]
  · next h => simp [Function.comp_def, hmap, h]

mutual

lemma ownKeys_eq_reachedKeys : ∀ e : Element, e.ownKeys = e.reachedKeys
  | mk _ _ children _ => by
    rw [ownKeys, reachedKeys, nested]
    exact ownKeysOf_eq children

lemma ownKeysOf_eq : ∀ es : List Element,
    ownKeysOf es = ((nestedOf es).filter IsReached).map Prod.snd
  | [] => rfl
  | e :: es => by
    have hfirst : IsReached ([], e) ↔ e.tag = "key" := by simp [IsReached]
    have hbelow := filter_isReached_map e e.nested
    rw [ownKeysOf, nestedOf, List.filter_append, List.map_append, ← ownKeysOf_eq es,
      ownKeys_eq_reachedKeys e, reachedKeys, List.filter_cons]
    congr 1
    rw [apply_ite (List.map Prod.snd), List.map_cons, hbelow]
    simp only [hfirst, decide_eq_true_eq]
    by_cases hkey : e.tag = "key" <;> simp [hkey]

end

end Stencil.Markup.Element

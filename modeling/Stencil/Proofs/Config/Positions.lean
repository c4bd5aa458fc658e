import Stencil.Proofs.Config.Attributes
import Stencil.Proofs.Config.Loading

/-!
Where the keys of a template stand.

A position says which child to go to at each level, so that the order of positions is the order of
the document. The keys of a template stand at the positions below it that are reached without
entering a switch or a key. So a key element that stands in another one is not a key of the template,
although no switch encloses it.
-/

namespace Stencil

open Markup

namespace Markup.Element

variable {e c f : Element} {tag : String} {i : Nat} {p q : List Nat}

/-! ### Positions -/

/-- The element at a position: each number chooses one of the children. -/
def at? : Element → List Nat → Option Element
  | e, [] => some e
  | e, i :: p => e.children[i]?.bind fun c => at? c p

lemma at?_cons_eq_some_iff :
    e.at? (i :: p) = some f ↔ ∃ c, e.children[i]? = some c ∧ c.at? p = some f := by
  rw [at?, Option.bind_eq_some_iff]

/-- An element of the tag stands between this one and the position. -/
def Between (e : Element) (tag : String) (p : List Nat) : Prop :=
  ∃ q f, q <+: p ∧ q ≠ [] ∧ q ≠ p ∧ e.at? q = some f ∧ f.tag = tag

/-- What stands between is the child on the way, or it is found from there. -/
lemma between_cons_iff : e.Between tag (i :: p) ↔
    ∃ c, e.children[i]? = some c ∧ p ≠ [] ∧ (c.tag = tag ∨ c.Between tag p) := by
  constructor
  · rintro ⟨q, f, hq, hne, hproper, hat, htag⟩
    obtain ⟨j, q, rfl⟩ := List.exists_cons_of_ne_nil hne
    obtain ⟨rfl, hqp⟩ := List.cons_prefix_cons.mp hq
    obtain ⟨c, hc, hat⟩ := at?_cons_eq_some_iff.mp hat
    have hshort : q ≠ p := fun h => hproper (h ▸ rfl)
    refine ⟨c, hc, fun hp => hshort ?_, ?_⟩
    · subst hp
      exact List.prefix_nil.mp hqp
    by_cases hnil : q = []
    · subst hnil
      obtain rfl := Option.some.inj hat
      exact .inl htag
    · exact .inr ⟨q, f, hqp, hnil, hshort, hat, htag⟩
  · rintro ⟨c, hc, hp, htag | ⟨q, f, hq, -, hqp, hat, htag⟩⟩
    · refine ⟨[i], c, List.cons_prefix_cons.mpr ⟨rfl, List.nil_prefix⟩, by simp, ?_, ?_, htag⟩
      · exact fun h => hp (List.cons.inj h).2.symm
      · exact at?_cons_eq_some_iff.mpr ⟨c, hc, rfl⟩
    · refine ⟨i :: q, f, List.cons_prefix_cons.mpr ⟨rfl, hq⟩, by simp, ?_, ?_, htag⟩
      · exact fun h => hqp (List.cons.inj h).2
      · exact at?_cons_eq_some_iff.mpr ⟨c, hc, hat⟩

/-- A key element stands at the position, below this one and with no switch in between. -/
def KeyAt (e : Element) (p : List Nat) : Prop :=
  p ≠ [] ∧ (∃ f, e.at? p = some f ∧ f.tag = "key") ∧ ¬ e.Between "switch" p

lemma keyAt_cons_iff : e.KeyAt (i :: p) ↔ ∃ c, e.children[i]? = some c ∧
    if p = [] then c.tag = "key" else c.tag ≠ "switch" ∧ c.KeyAt p := by
  unfold KeyAt
  rw [between_cons_iff]
  constructor
  · rintro ⟨-, ⟨f, hat, htag⟩, hno⟩
    obtain ⟨c, hc, hat⟩ := at?_cons_eq_some_iff.mp hat
    refine ⟨c, hc, ?_⟩
    split
    · next hp =>
      subst hp
      obtain rfl := Option.some.inj hat
      exact htag
    · next hp =>
      refine ⟨fun hs => hno ⟨c, hc, hp, .inl hs⟩, hp, ⟨f, hat, htag⟩, fun hb => ?_⟩
      exact hno ⟨c, hc, hp, .inr hb⟩
  · rintro ⟨c, hc, h⟩
    split at h
    · next hp =>
      subst hp
      exact ⟨by simp, ⟨c, at?_cons_eq_some_iff.mpr ⟨c, hc, rfl⟩, h⟩, by simp⟩
    · obtain ⟨hs, -, ⟨f, hat, htag⟩, hno⟩ := h
      refine ⟨by simp, ⟨f, at?_cons_eq_some_iff.mpr ⟨c, hc, hat⟩, htag⟩, ?_⟩
      rintro ⟨c', hc', -, hb⟩
      obtain rfl := Option.some.inj (hc.symm.trans hc')
      exact hb.elim hs hno

/-- A key element stands between whenever one stands on the way. -/
lemma KeyAt.between (h : e.KeyAt q) (hqp : q <+: p) (hshort : q ≠ p) : e.Between "key" p := by
  obtain ⟨hne, ⟨f, hat, htag⟩, -⟩ := h
  exact ⟨q, f, hqp, hne, hshort, hat, htag⟩

instance decidableKeyAt : ∀ (p : List Nat) (e : Element), Decidable (e.KeyAt p)
  | [], _ => isFalse fun h => h.1 rfl
  | i :: p, e =>
    match hc : e.children[i]? with
    | none => isFalse fun h => by simp [keyAt_cons_iff, hc] at h
    | some c =>
      have := decidableKeyAt p c
      decidable_of_iff (if p = [] then c.tag = "key" else c.tag ≠ "switch" ∧ c.KeyAt p) <| by
        simp [keyAt_cons_iff, hc]

/-! ### The positions of the keys -/

mutual

/-- The positions of the key elements below this one that lie in no switch and in no other key. -/
def ownPositions : Element → List (List Nat)
  | mk _ _ children _ => ownPositionsOf 0 children

/-- The same for the elements of a list, the first of which is the child with the given number. -/
def ownPositionsOf (i : Nat) : List Element → List (List Nat)
  | [] => []
  | e :: es =>
    (if e.tag = "switch" then [] else if e.tag = "key" then [[i]]
      else (ownPositions e).map (i :: ·)) ++ ownPositionsOf (i + 1) es

end

lemma mem_ownPositionsOf_iff {es : List Element} : p ∈ ownPositionsOf i es ↔
    ∃ j c q, es[j]? = some c ∧ p = (i + j) :: q ∧ c.tag ≠ "switch" ∧
      if c.tag = "key" then q = [] else q ∈ c.ownPositions := by
  induction es generalizing i with
  | nil => simp [ownPositionsOf]
  | cons e es ih =>
    have hfirst : (p ∈ if e.tag = "switch" then [] else if e.tag = "key" then [[i]]
        else e.ownPositions.map (i :: ·)) ↔ ∃ q, p = i :: q ∧ e.tag ≠ "switch" ∧
          if e.tag = "key" then q = [] else q ∈ e.ownPositions := by
      by_cases hs : e.tag = "switch"
      · simp [hs]
      · by_cases hk : e.tag = "key"
        · simp [hk]
        · simp only [hs, hk, if_false, List.mem_map, ne_eq, not_false_eq_true, true_and]
          exact ⟨fun ⟨q, hq, h⟩ => ⟨q, h.symm, hq⟩, fun ⟨q, h, hq⟩ => ⟨q, hq, h.symm⟩⟩
    rw [ownPositionsOf, List.mem_append, hfirst, ih]
    constructor
    · rintro (⟨q, rfl, h⟩ | ⟨j, c, q, hc, rfl, h⟩)
      · exact ⟨0, e, q, rfl, rfl, h⟩
      · exact ⟨j + 1, c, q, hc, by rw [Nat.add_right_comm, Nat.add_assoc], h⟩
    · rintro ⟨_ | j, c, q, hc, rfl, h⟩
      · obtain rfl := Option.some.inj hc
        exact .inl ⟨q, rfl, h⟩
      · exact .inr ⟨j, c, q, hc, by rw [Nat.add_right_comm, Nat.add_assoc], h⟩

lemma mem_ownPositions_cons_iff : i :: p ∈ e.ownPositions ↔
    ∃ c, e.children[i]? = some c ∧ c.tag ≠ "switch" ∧
      if c.tag = "key" then p = [] else p ∈ c.ownPositions := by
  obtain ⟨name, attributes, children, span⟩ := e
  rw [ownPositions, mem_ownPositionsOf_iff]
  simp only [Nat.zero_add, List.cons.injEq]
  constructor
  · rintro ⟨j, c, q, hc, ⟨rfl, rfl⟩, h⟩
    exact ⟨c, hc, h⟩
  · rintro ⟨c, hc, h⟩
    exact ⟨i, c, p, hc, ⟨rfl, rfl⟩, h⟩

lemma nil_not_mem_ownPositions : [] ∉ e.ownPositions := by
  obtain ⟨name, attributes, children, span⟩ := e
  rw [ownPositions, mem_ownPositionsOf_iff]
  simp

/-- **The positions are those of the keys** that stand neither in a switch nor in another key. -/
theorem mem_ownPositions_iff : p ∈ e.ownPositions ↔ e.KeyAt p ∧ ¬ e.Between "key" p := by
  induction p generalizing e with
  | nil =>
    have hno : ¬ e.KeyAt [] := fun h => h.1 rfl
    simp [nil_not_mem_ownPositions, hno]
  | cons i p ih =>
    rw [mem_ownPositions_cons_iff, keyAt_cons_iff, between_cons_iff]
    constructor
    · rintro ⟨c, hc, hs, h⟩
      split at h
      · next hk =>
        subst h
        exact ⟨⟨c, hc, by rwa [if_pos rfl]⟩, by simp⟩
      · next hk =>
        obtain ⟨hkey, hno⟩ := ih.mp h
        refine ⟨⟨c, hc, by rw [if_neg hkey.1]; exact ⟨hs, hkey⟩⟩, ?_⟩
        rintro ⟨c', hc', -, hb⟩
        obtain rfl := Option.some.inj (hc.symm.trans hc')
        exact hb.elim hk hno
    · rintro ⟨⟨c, hc, h⟩, hno⟩
      refine ⟨c, hc, ?_⟩
      split at h
      · next hp => simp [h, hp]
      · next hp =>
        have hk : c.tag ≠ "key" := fun hk => hno ⟨c, hc, hp, .inl hk⟩
        refine ⟨h.1, ?_⟩
        rw [if_neg hk, ih]
        exact ⟨h.2, fun hb => hno ⟨c, hc, hp, .inr hb⟩⟩

/-- What is left out stands in a key that is not. -/
lemma KeyAt.exists_prefix (h : e.KeyAt p) : ∃ q ∈ e.ownPositions, q <+: p := by
  induction p generalizing e with
  | nil => exact absurd rfl h.1
  | cons i p ih =>
    obtain ⟨c, hc, h⟩ := keyAt_cons_iff.mp h
    have hs : c.tag ≠ "switch" := by
      split at h
      · rw [h]
        decide
      · exact h.1
    by_cases hk : c.tag = "key"
    · have hmem : [i] ∈ e.ownPositions :=
        mem_ownPositions_cons_iff.mpr ⟨c, hc, hs, by rw [if_pos hk]⟩
      exact ⟨[i], hmem, List.cons_prefix_cons.mpr ⟨rfl, List.nil_prefix⟩⟩
    · have hp : p ≠ [] := fun hp => hk (by rwa [if_pos hp] at h)
      rw [if_neg hp] at h
      obtain ⟨q, hq, hqp⟩ := ih h.2
      refine ⟨i :: q, mem_ownPositions_cons_iff.mpr ⟨c, hc, hs, ?_⟩,
        List.cons_prefix_cons.mpr ⟨rfl, hqp⟩⟩
      rwa [if_neg hk]

mutual

/-- The positions are in document order, and none of them is there twice. -/
lemma pairwise_ownPositions : ∀ e : Element, e.ownPositions.Pairwise (· < ·)
  | mk _ _ children _ => by
    rw [ownPositions]
    exact pairwise_ownPositionsOf 0 children

lemma pairwise_ownPositionsOf (i : Nat) : ∀ es : List Element,
    (ownPositionsOf i es).Pairwise (· < ·)
  | [] => .nil
  | e :: es => by
    rw [ownPositionsOf, List.pairwise_append]
    refine ⟨?_, pairwise_ownPositionsOf (i + 1) es, ?_⟩
    · split
      · exact .nil
      split
      · exact List.pairwise_singleton _ _
      · refine List.pairwise_map.mpr ((pairwise_ownPositions e).imp fun hlt => ?_)
        exact List.cons_lt_cons_iff.mpr (.inr ⟨rfl, hlt⟩)
    · -- all that comes later is below a child with a greater number
      intro p hp q hq
      obtain ⟨p, rfl⟩ : ∃ p', p = i :: p' := by
        split at hp
        · simp at hp
        split at hp
        · exact ⟨[], List.mem_singleton.mp hp⟩
        · obtain ⟨p', -, rfl⟩ := List.mem_map.mp hp
          exact ⟨p', rfl⟩
      obtain ⟨j, -, q, -, rfl, -⟩ := mem_ownPositionsOf_iff.mp hq
      exact List.cons_lt_cons_iff.mpr (.inl (by omega))

end

mutual

/-- The keys of a template are the elements at these positions, in order. -/
lemma map_at?_ownPositions : ∀ e : Element, e.ownPositions.map e.at? = e.ownKeys.map some
  | mk name attributes children span => by
    rw [ownPositions, ownKeys]
    exact map_at?_ownPositionsOf 0 (mk name attributes children span) children rfl

lemma map_at?_ownPositionsOf (i : Nat) (parent : Element) : ∀ es : List Element,
    parent.children.drop i = es → (ownPositionsOf i es).map parent.at? = (ownKeysOf es).map some
  | [], _ => rfl
  | e :: es, h => by
    have hfirst : parent.children[i]? = some e := by
      rw [← List.head?_drop, h, List.head?_cons]
    have hrest : parent.children.drop (i + 1) = es := by
      rw [← List.tail_drop, h, List.tail_cons]
    have hat : ∀ p, parent.at? (i :: p) = e.at? p := fun p => by
      rw [at?, hfirst, Option.bind_some]
    rw [ownPositionsOf, ownKeysOf, List.map_append, List.map_append,
      map_at?_ownPositionsOf (i + 1) parent es hrest]
    congr 1
    split
    · rfl
    split
    · exact congrArg (fun o => [o]) (hat [])
    · rw [List.map_map, ← map_at?_ownPositions e]
      exact List.map_congr_left fun p _ => hat p

end

end Markup.Element

namespace Template

variable {e : Element} {t : Template}

/-- **The keys of a template** are read from the key elements that stand below it with neither a switch
nor another key in between, in document order and each of them once. A key element that is left out
although no switch encloses it stands in one of these. -/
theorem keys_of_ofElement (h : Template.ofElement e = .ok t) : ∃ positions : List (List Nat),
    positions.Pairwise (· < ·) ∧
    List.Forall₂ (fun p k => (e.at? p).bind Key.ofElement? = some k) positions t.keys ∧
    (∀ p, p ∈ positions ↔ e.KeyAt p ∧ ¬ e.Between "key" p) ∧
    ∀ p, e.KeyAt p → ∃ q ∈ positions, q <+: p := by
  obtain ⟨-, hkeys, -⟩ := ofElement_eq_ok_iff.mp h
  have hread : List.Forall₂ (fun f k => Key.ofElement? f = some k) e.ownKeys t.keys :=
    (mapM_eq_ok_iff.mp hkeys).imp fun _ _ hk => Key.ofElement?_eq_some_iff.mpr hk
  refine ⟨e.ownPositions, e.pairwise_ownPositions, ?_, fun p => Element.mem_ownPositions_iff,
    fun p hp => hp.exists_prefix⟩
  have hplaced : List.Forall₂ (fun f? k => f?.bind Key.ofElement? = some k)
      (e.ownKeys.map some) t.keys := List.forall₂_map_left_iff.mpr hread
  rw [← e.map_at?_ownPositions] at hplaced
  exact List.forall₂_map_left_iff.mp hplaced

/-- Keys stand below another tag, in a key and in a switch. -/
def layeredSource : String :=
  "<template name='t' desc='d'><group><key name='a' type='uuid'/></group>" ++
  "<key name='b' type='uuid'><key name='c' type='uuid'/></key>" ++
  "<switch name='s' type='x'><case name='u'><key name='e' type='uuid'/></case></switch></template>"

lemma exists_layered : ∃ d, Document.parse layeredSource = .ok d ∧ ∃ e ∈ d.templates,
    e.KeyAt [1] ∧ e.KeyAt [1, 0] ∧ ∃ t, Template.ofElement e = .ok t ∧ t.keyNames = ["a", "b"] := by
  have hchars : layeredSource = String.ofList _ ++ String.ofList _ ++ String.ofList _ := rfl
  have hparse : (Document.parse layeredSource).toOption.any fun d => d.templates.any fun e =>
      e.KeyAt [1] ∧ e.KeyAt [1, 0] ∧
        (Template.ofElement e).toOption.any (·.keyNames = ["a", "b"]) := by
    rw [hchars, ← String.ofList_append, ← String.ofList_append, Config.parse_ofList]
    decide +kernel
  obtain ⟨d, hd, hany⟩ := exists_of_toOption_any hparse
  obtain ⟨e, he, hkeys⟩ := List.any_eq_true.mp hany
  obtain ⟨hb, hc, ht⟩ := of_decide_eq_true hkeys
  obtain ⟨t, ht, hnames⟩ := exists_of_toOption_any ht
  exact ⟨d, hd, e, he, hb, hc, t, ht, of_decide_eq_true hnames⟩

/-- The keys `a` and `b` are read, and `c` stands in one of them. -/
theorem keys_of_ofElement_layered : ∃ d e t, Document.parse layeredSource = .ok d ∧
    e ∈ d.templates ∧ Template.ofElement e = .ok t ∧ t.keyNames = ["a", "b"] ∧
    ∃ positions : List (List Nat), positions.length = 2 ∧ e.KeyAt [1, 0] ∧
      [1, 0] ∉ positions ∧ ∃ q ∈ positions, q <+: [1, 0] := by
  obtain ⟨d, hd, e, he, hb, hc, t, ht, hnames⟩ := exists_layered
  obtain ⟨positions, -, hkeys, hmem, hleft⟩ := keys_of_ofElement ht
  have hlength : t.keys.length = 2 := by
    have hmap : t.keys.map (·.name) = ["a", "b"] := hnames
    simpa using congrArg List.length hmap
  have hbetween : e.Between "key" [1, 0] := hb.between (by decide) (by decide)
  exact ⟨d, e, t, hd, he, ht, hnames, positions, hkeys.length_eq.trans hlength, hc,
    fun hin => ((hmem _).mp hin).2 hbetween, hleft _ hc⟩

/-- A template with a key in a key. -/
def enclosingSource : String :=
  "<template name='t' desc='d'><key name='a' type='value' value='1'>" ++
  "<key name='b' type='value' value='2'/></key></template>"

/-- Not all key elements outside of switches are keys of the template. -/
theorem not_all_keys_read : ¬ ∀ (source : String) (d : Document) (e : Element) (t : Template),
    Document.parse source = .ok d → e ∈ d.templates → Template.ofElement e = .ok t →
      ∃ positions : List (List Nat), positions.Pairwise (· < ·) ∧
        List.Forall₂ (fun p k => (e.at? p).bind Key.ofElement? = some k) positions t.keys ∧
        ∀ p, p ∈ positions ↔ e.KeyAt p := by
  intro h
  have hchars : enclosingSource = String.ofList _ ++ String.ofList _ := rfl
  have hparse : (Document.parse enclosingSource).toOption.any fun d => d.templates.any fun e =>
      e.KeyAt [0] ∧ e.KeyAt [0, 0] ∧ (Template.ofElement e).toOption.any (·.keys.length = 1) := by
    rw [hchars, ← String.ofList_append, Config.parse_ofList]
    decide +kernel
  obtain ⟨d, hd, hany⟩ := exists_of_toOption_any hparse
  obtain ⟨e, he, hkeys⟩ := List.any_eq_true.mp hany
  obtain ⟨ha, hb, ht⟩ := of_decide_eq_true hkeys
  obtain ⟨t, ht, hone⟩ := exists_of_toOption_any ht
  obtain ⟨positions, -, hread, hmem⟩ := h _ d e t hd he ht
  -- two positions, and one key
  have hlength : positions.length = 1 := hread.length_eq.trans (of_decide_eq_true hone)
  obtain ⟨p, rfl⟩ := List.length_eq_one_iff.mp hlength
  have hfirst : [0] = p := List.mem_singleton.mp ((hmem [0]).mpr ha)
  have hsecond : [0, 0] = p := List.mem_singleton.mp ((hmem [0, 0]).mpr hb)
  exact absurd (hfirst.trans hsecond.symm) (by decide)

end Template

end Stencil

import Stencil.Placeholder
import Mathlib.Data.List.TakeWhile
import Mathlib.Tactic.Cases

/-!
Where a placeholder ends.

What stands before a placeholder cannot be a part of it, because no name contains a dollar sign. What
follows it can be, because names may contain parentheses: up to the last `)` that can be reached by
characters of names, all belongs to the name. If there is none in what follows, the placeholder ends
where it was written to end.
-/

namespace Stencil.Placeholder

variable {cs ds name : List Char} {value? : String → Option String}

/-! ### The end of a name -/

/-- There is no end if characters of names do not lead to a `)`. -/
lemma closing_eq_none_iff : closing cs = none ↔ ')' ∉ cs.takeWhile isSymbolChar := by
  induction cs with
  | nil => simp [closing]
  | cons c cs ih =>
    by_cases hc : isSymbolChar c
    · rw [closing, if_pos hc, List.takeWhile_cons_of_pos hc, List.mem_cons, not_or, ← ih]
      cases closing cs with
      | some found => simp
      | none => by_cases hend : c = ')' <;> simp [hend, eq_comm]
    · rw [closing, if_neg hc, List.takeWhile_cons_of_neg hc]
      simp

/-- A name ends where no other `)` can be reached. -/
lemma closing_append (hname : ∀ c ∈ name, isSymbolChar c)
    (hend : ')' ∉ cs.takeWhile isSymbolChar) : closing (name ++ ')' :: cs) = some (name, cs) := by
  induction name with
  | nil =>
    have hparen : isSymbolChar ')' = true := by decide
    rw [List.nil_append, closing, if_pos hparen, closing_eq_none_iff.mpr hend]
    simp
  | cons c name ih =>
    obtain ⟨hc, hname⟩ := List.forall_mem_cons.mp hname
    rw [List.cons_append, closing, if_pos hc, ih hname]

lemma ends_of_closing (h : closing cs = some (name, ds)) :
    (∀ c ∈ name, isSymbolChar c) ∧ ')' ∉ ds.takeWhile isSymbolChar := by
  induction cs generalizing name with
  | nil => simp [closing] at h
  | cons c cs ih =>
    unfold closing at h
    split at h
    · next hc =>
      split at h
      · next name' rest hfound =>
        obtain ⟨rfl, rfl⟩ := Prod.mk.inj (Option.some.inj h)
        obtain ⟨hname, hend⟩ := ih hfound
        exact ⟨List.forall_mem_cons.mpr ⟨hc, hname⟩, hend⟩
      · next hnone =>
        split at h
        · obtain ⟨rfl, rfl⟩ := Prod.mk.inj (Option.some.inj h)
          exact ⟨by simp, closing_eq_none_iff.mp hnone⟩
        · simp at h
    · simp at h

/-- A dollar sign is no character of a name, so what comes after it does not matter. -/
lemma closing_append_dollar : closing (cs ++ '$' :: ds) =
    (closing cs).map fun found => (found.1, found.2 ++ '$' :: ds) := by
  induction cs with
  | nil =>
    have hdollar : isSymbolChar '$' = false := by decide
    simp [closing, hdollar]
  | cons c cs ih =>
    rw [List.cons_append, closing, closing, ih]
    split
    · cases closing cs with
      | some found => simp
      | none => by_cases hc : c = ')' <;> simp [hc]
    · simp

/-! ### Pieces -/

lemma pieces_placeholder {c : Char} (h : closing cs = some (c :: name, ds)) :
    pieces ('$' :: '(' :: cs) = .placeholder (String.ofList (c :: name)) :: pieces ds := by
  rw [pieces]
  split
  · next h' =>
    rw [h] at h'
    simp only [Option.some.injEq, Prod.mk.injEq, List.cons.injEq] at h'
    obtain ⟨⟨rfl, rfl⟩, rfl⟩ := h'
    rfl
  · next hno => exact absurd h (hno _ _ _)

lemma pieces_dollar (h : ∀ c name ds, closing cs ≠ some (c :: name, ds)) :
    pieces ('$' :: '(' :: cs) = .char '$' :: pieces ('(' :: cs) := by
  rw [pieces]
  split
  · next h' => exact absurd h' (h _ _ _)
  · rfl

lemma pieces_char {c : Char} (h : ∀ ds, c = '$' → cs ≠ '(' :: ds) :
    pieces (c :: cs) = .char c :: pieces cs := by
  rw [pieces]
  exact h

/-- The pieces of what stands before a dollar sign do not depend on what comes after it. -/
lemma pieces_append_dollar (cs ds : List Char) :
    pieces (cs ++ '$' :: ds) = pieces cs ++ pieces ('$' :: ds) := by
  induction cs using pieces.induct with
  | case1 => simp [pieces]
  | case2 cs c name rest h ih =>
    have happ : closing (cs ++ '$' :: ds) = some (c :: name, rest ++ '$' :: ds) := by
      rw [closing_append_dollar, h, Option.map_some]
    rw [List.cons_append, List.cons_append, pieces_placeholder happ, pieces_placeholder h, ih,
      List.cons_append]
  | case3 cs h ih =>
    have happ : ∀ c name rest, closing (cs ++ '$' :: ds) ≠ some (c :: name, rest) := by
      intro c name rest hsome
      rw [closing_append_dollar, Option.map_eq_some_iff] at hsome
      obtain ⟨⟨_, rest'⟩, hcs, heq⟩ := hsome
      obtain ⟨rfl, -⟩ := Prod.mk.inj heq
      exact h c name rest' hcs
    rw [List.cons_append, List.cons_append, pieces_dollar happ, pieces_dollar h, ← List.cons_append,
      ih, List.cons_append]
  | case4 c cs h ih =>
    have happ : ∀ rest, c = '$' → cs ++ '$' :: ds ≠ '(' :: rest := by
      rintro rest hc heq
      cases cs with
      | nil => simp at heq
      | cons c' cs' =>
        obtain ⟨rfl, -⟩ := List.cons.inj heq
        exact h cs' hc rfl
    rw [List.cons_append, pieces_char happ, pieces_char fun rest hc heq => h rest hc heq, ih,
      List.cons_append]

/-- **A placeholder stands for itself**, whatever is before it, if no other `)` can be reached after
it. -/
theorem pieces_append_token (hne : name ≠ []) (hname : ∀ c ∈ name, isSymbolChar c)
    (hend : ')' ∉ ds.takeWhile isSymbolChar) : pieces (cs ++ '$' :: '(' :: (name ++ ')' :: ds)) =
      pieces cs ++ .placeholder (String.ofList name) :: pieces ds := by
  obtain ⟨c, name, rfl⟩ := List.exists_cons_of_ne_nil hne
  rw [pieces_append_dollar, pieces_placeholder (closing_append hname hend)]

/-! ### Substitution -/

/-- A name that a placeholder can have. -/
structure IsName (name : String) : Prop where
  ne_empty : name ≠ ""
  symbols : ∀ c ∈ name.toList, isSymbolChar c

/-- No `)` can be reached from the start of the text by characters of names. -/
def EndsNames (text : String) : Prop := ')' ∉ text.toList.takeWhile isSymbolChar

/-- A text that does not end names begins with the rest of a name. -/
lemma exists_of_not_endsNames {text : String} (h : ¬ EndsNames text) : ∃ m w : String,
    text = m ++ ")" ++ w ∧ (∀ c ∈ m.toList, isSymbolChar c) ∧ EndsNames w := by
  rw [EndsNames, ← closing_eq_none_iff] at h
  obtain ⟨⟨m, w⟩, hmw⟩ := Option.ne_none_iff_exists'.mp h
  obtain ⟨hm, hw⟩ := ends_of_closing hmw
  refine ⟨String.ofList m, String.ofList w, ?_, by simpa using hm, by simpa [EndsNames] using hw⟩
  rw [← String.toList_inj, eq_append_of_closing hmw]
  simp

lemma substitute_append_token {name : String} (hname : IsName name) {v : String}
    (hend : EndsNames v) (u : String) : substitute value? (u ++ token name ++ v) =
      substitute value? u ++ (value? name).getD (token name) ++ substitute value? v := by
  have hne : name.toList ≠ [] := by simpa using hname.ne_empty
  have hchars : (u ++ token name ++ v).toList =
      u.toList ++ '$' :: '(' :: (name.toList ++ ')' :: v.toList) := by simp [token]
  unfold substitute
  rw [hchars, pieces_append_token hne hname.symbols hend, List.map_append, String.join_append,
    List.map_cons, String.join_cons, Piece.fill, String.ofList_toList, String.append_assoc]

/-- **A placeholder is replaced wherever it stands**, unless a `)` can be reached after it by
characters of names. Then it is not this placeholder that stands there, but the one whose name goes on
up to the last such `)`. -/
theorem substitute_token {name x : String} (hname : IsName name) (hx : value? name = some x)
    (u v : String) :
    (EndsNames v → substitute value? (u ++ token name ++ v) =
      substitute value? u ++ x ++ substitute value? v) ∧
    (¬ EndsNames v → ∃ m w : String, v = m ++ ")" ++ w ∧ (∀ c ∈ m.toList, isSymbolChar c) ∧
      EndsNames w ∧ substitute value? (u ++ token name ++ v) =
        substitute value? u ++
          (value? (name ++ ")" ++ m)).getD (token (name ++ ")" ++ m)) ++ substitute value? w) := by
  constructor
  · intro hend
    rw [substitute_append_token hname hend, hx, Option.getD_some]
  · intro hgoes
    obtain ⟨m, w, rfl, hm, hend⟩ := exists_of_not_endsNames hgoes
    have hlonger : IsName (name ++ ")" ++ m) := by
      refine ⟨by simp [hname.ne_empty], fun c hc => ?_⟩
      rw [String.toList_append, String.toList_append, List.mem_append, List.mem_append] at hc
      rcases hc with (hc | hc) | hc
      · exact hname.symbols c hc
      · obtain rfl : c = ')' := by simpa using hc
        decide
      · exact hm c hc
    have htext : u ++ token name ++ (m ++ ")" ++ w) = u ++ token (name ++ ")" ++ m) ++ w := by
      simp [token, String.append_assoc]
    exact ⟨m, w, rfl, hm, hend, by rw [htext, substitute_append_token hlonger hend]⟩

/-- Only the name `a` has a value. -/
def onlyA (name : String) : Option String := if name = "a" then some "x" else none

lemma isName_a : IsName "a" where
  ne_empty := by decide
  symbols c hc := by
    obtain rfl : c = 'a' := by simpa using hc
    decide

theorem substitute_token_in_call :
    substitute onlyA ("f(" ++ token "a" ++ ", 1)") =
      substitute onlyA "f(" ++ "x" ++ substitute onlyA ", 1)" ∧
    ∃ m w : String, ")" = m ++ ")" ++ w ∧ substitute onlyA ("f(" ++ token "a" ++ ")") =
      substitute onlyA "f(" ++ (onlyA ("a" ++ ")" ++ m)).getD (token ("a" ++ ")" ++ m)) ++
        substitute onlyA w := by
  have hx : onlyA "a" = some "x" := by decide
  have hends : EndsNames ", 1)" := by
    unfold EndsNames
    decide
  have hgoes : ¬ EndsNames ")" := by
    unfold EndsNames
    decide
  obtain ⟨m, w, hv, -, -, hlast⟩ := (substitute_token isName_a hx "f(" ")").2 hgoes
  exact ⟨(substitute_token isName_a hx "f(" ", 1)").1 hends, m, w, hv, hlast⟩

/-- The last argument of a call is not replaced. -/
theorem not_all_tokens_replaced : ¬ ∀ (value? : String → Option String) (u v name x : String),
    IsName name → value? name = some x →
      substitute value? (u ++ token name ++ v) = substitute value? u ++ x ++ substitute value? v := by
  intro h
  have hcall := h onlyA "f(" ")" "a" "x" isName_a (by decide)
  have htext : substitute onlyA ("f(" ++ token "a" ++ ")") = "f($(a))" := by decide +kernel
  have hparts : substitute onlyA "f(" ++ "x" ++ substitute onlyA ")" = "f(x)" := by decide +kernel
  rw [htext, hparts] at hcall
  exact absurd hcall (by decide)

end Stencil.Placeholder

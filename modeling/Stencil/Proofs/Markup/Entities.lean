import Stencil.Markup.Entity
import Stencil.Proofs.Text.Replacing

/-!
Decoding entities in one pass.

The entities are replaced one after the other, each in the whole text. Since no character that is
put in can become part of an entity that is replaced later, this is the same as one pass over the
text that replaces every entity where it stands.
-/

namespace Stencil.Markup.Entity

/-! ### One pass -/

/-- The first entity of the table that the text starts with. -/
def atStart (table : List (String × Char)) (text : List Char) : Option (String × Char) :=
  table.find? fun e => e.1.toList.isPrefixOf text

/-- The text with its entities replaced in one pass from left to right, which never looks at what it
has put in. -/
def onePass (table : List (String × Char)) : List Char → List Char
  | [] => []
  | c :: cs =>
    match atStart table (c :: cs) with
    | some e => e.2 :: onePass table (cs.drop (e.1.toList.length - 1))
    | none => c :: onePass table cs
termination_by cs => cs.length
decreasing_by all_goals (simp only [List.length_drop, List.length_cons]; omega)

/-- An entity has its only ampersand in front. -/
def Marked (e : String × Char) : Prop := ∃ ps, e.1.toList = '&' :: ps ∧ '&' ∉ ps

variable {table : List (String × Char)} {e : String × Char} {c : Char} {cs ps : List Char}

@[simp] lemma onePass_nil : onePass table [] = [] := by rw [onePass]

lemma onePass_of_atStart_eq_some (h : atStart table (c :: cs) = some e) :
    onePass table (c :: cs) = e.2 :: onePass table (cs.drop (e.1.toList.length - 1)) := by
  rw [onePass, h]

lemma onePass_of_atStart_eq_none (h : atStart table (c :: cs) = none) :
    onePass table (c :: cs) = c :: onePass table cs := by
  rw [onePass, h]

lemma atStart_append {table' : List (String × Char)} :
    atStart (table ++ table') cs = (atStart table cs).or (atStart table' cs) :=
  List.find?_append

lemma atStart_singleton : atStart [e] cs = if e.1.toList <+: cs then some e else none := by
  by_cases h : e.1.toList <+: cs <;> simp [atStart, h]

lemma mem_of_atStart_eq_some (h : atStart table cs = some e) : e ∈ table :=
  List.mem_of_find?_eq_some h

lemma atStart_eq_none (h : ∀ e ∈ table, Marked e) (hc : c ≠ '&') :
    atStart table (c :: cs) = none := by
  simp only [atStart, List.find?_eq_none]
  intro e he
  obtain ⟨ps, hps, -⟩ := h e he
  simp [hps, hc.symm]

lemma onePass_append (h : ∀ e ∈ table, Marked e) (hps : '&' ∉ ps) (cs : List Char) :
    onePass table (ps ++ cs) = ps ++ onePass table cs := by
  induction ps with
  | nil => rfl
  | cons p ps ih =>
    rw [List.mem_cons, not_or] at hps
    rw [List.cons_append, onePass_of_atStart_eq_none (atStart_eq_none h (Ne.symm hps.1)), ih hps.2,
      List.cons_append]

/-! ### One after the other -/

/-- What follows the ampersand of an entity does not come up by replacing others. -/
lemma prefix_of_prefix_onePass (hnew : ∀ d ∈ table, d.2 ∉ ps) (hbegin : ps <+: onePass table cs) :
    ps <+: cs := by
  induction ps generalizing cs with
  | nil => exact List.nil_prefix
  | cons p ps ih =>
    obtain _ | ⟨c, cs⟩ := cs
    · simp at hbegin
    cases hstart : atStart table (c :: cs) with
    | some d =>
      rw [onePass_of_atStart_eq_some hstart, List.cons_prefix_cons] at hbegin
      have hput := hnew d (mem_of_atStart_eq_some hstart)
      exact absurd (List.mem_cons.mpr (.inl hbegin.1.symm)) hput
    | none =>
      rw [onePass_of_atStart_eq_none hstart, List.cons_prefix_cons] at hbegin
      have hrest := ih (fun d hd hm => hnew d hd (List.mem_cons_of_mem _ hm)) hbegin.2
      exact List.cons_prefix_cons.mpr ⟨hbegin.1, hrest⟩

/-- Replacing one more entity in the whole text is the same as one pass with this entity at the end
of the table, if nothing that the pass puts in is part of the entity. -/
lemma replaceAll_onePass (h : ∀ d ∈ table, Marked d) (he : Marked e)
    (hnew : ∀ d ∈ table, d.2 ∉ e.1.toList) (raw : List Char) :
    Text.replaceAll e.1.toList [e.2] (onePass table raw) = onePass (table ++ [e]) raw := by
  obtain ⟨ps, htext, hps⟩ := id he
  have hall : ∀ d ∈ table ++ [e], Marked d := by
    rintro d hd
    obtain hd | rfl := by simpa using hd
    exacts [h d hd, he]
  simp only [htext, List.mem_cons, not_or] at hnew ⊢
  fun_induction onePass table raw with
  | case1 => simp [Text.replaceAll, Text.replaceFrom]
  | case2 c cs d hd ih =>
    have hlonger : atStart (table ++ [e]) (c :: cs) = some d := by simp [atStart_append, hd]
    have hput : '&' ∉ [d.2] := by simpa using Ne.symm (hnew d (mem_of_atStart_eq_some hd)).1
    rw [onePass_of_atStart_eq_some hlonger, ← ih]
    exact Text.replaceAll_append hput _
  | case3 c cs hd ih =>
    have hlonger : atStart (table ++ [e]) (c :: cs) = atStart [e] (c :: cs) := by
      simp [atStart_append, hd]
    rw [atStart_singleton, htext] at hlonger
    by_cases hbegin : '&' :: ps <+: c :: cs
    · -- the entity stands here, and what follows its ampersand has been kept as it is
      rw [if_pos hbegin] at hlonger
      obtain ⟨rest, hrest⟩ := hbegin
      rw [List.cons_append, List.cons.injEq] at hrest
      obtain ⟨rfl, rfl⟩ := hrest
      rw [onePass_append h hps, Text.replaceAll_append hps, onePass_append hall hps,
        List.append_cancel_left_eq] at ih
      rw [onePass_append h hps, onePass_of_atStart_eq_some hlonger, ← List.cons_append,
        Text.replaceAll_self_append, ih]
      simp [htext]
    · -- it does not stand here, and has not come up either
      rw [if_neg hbegin] at hlonger
      have hstill : ¬ '&' :: ps <+: c :: onePass table cs := fun hm =>
        hbegin (List.cons_prefix_cons.mpr ⟨(List.cons_prefix_cons.mp hm).1,
          prefix_of_prefix_onePass (fun d hd => (hnew d hd).2) (List.cons_prefix_cons.mp hm).2⟩)
      rw [Text.replaceAll_cons_of_not_prefix hstill, onePass_of_atStart_eq_none hlonger, ih]

lemma foldl_onePass {rest : List (String × Char)} (h : ∀ e ∈ table ++ rest, Marked e)
    (hnew : (table ++ rest).Pairwise fun d e => d.2 ∉ e.1.toList) (raw : List Char) :
    rest.foldl (fun text e => Text.replaceAll e.1.toList [e.2] text) (onePass table raw) =
      onePass (table ++ rest) raw := by
  induction rest generalizing table with
  | nil => simp
  | cons e rest ih =>
    have hbefore : ∀ d ∈ table, d.2 ∉ e.1.toList := fun d hd =>
      (List.pairwise_append.mp hnew).2.2 d hd e List.mem_cons_self
    rw [List.foldl_cons, replaceAll_onePass (fun d hd => h d (List.mem_append_left _ hd))
      (h e (by simp)) hbefore, ih (by simpa using h) (by simpa using hnew)]
    simp

lemma onePass_empty (raw : List Char) : onePass [] raw = raw := by
  induction raw with
  | nil => rw [onePass_nil]
  | cons c cs ih => rw [onePass_of_atStart_eq_none rfl, ih]

lemma marked_of_mem_all : ∀ e ∈ all, Marked e := by
  simp [all, Marked]

/-- **Decoding is one pass** over the text. -/
theorem decode_eq_onePass (raw : List Char) : decode raw = onePass all raw := by
  have hfold : decode (onePass [] raw) = onePass ([] ++ all) raw :=
    foldl_onePass marked_of_mem_all (by decide) raw
  rwa [onePass_empty] at hfold

/-! ### Spellings -/

/-- The entity for each of the five special characters. -/
def reference : Char → Option String
  | '<' => some "&lt;"
  | '>' => some "&gt;"
  | '"' => some "&quot;"
  | '\'' => some "&apos;"
  | '&' => some "&amp;"
  | _ => none

/-- The text spells out the value: each character stands for itself, which those of `masked` must
not, or is written as its entity. -/
inductive Spells (masked : List Char) : List Char → List Char → Prop
  | nil : Spells masked [] []
  | raw {c : Char} {text value : List Char} (hc : c ∉ masked) (h : Spells masked text value) :
    Spells masked (c :: text) (c :: value)
  | entity {c : Char} {name : String} {text value : List Char} (hc : reference c = some name)
    (h : Spells masked text value) : Spells masked (name.toList ++ text) (c :: value)

lemma exists_spells {masked : List Char} (h : ∀ c ∈ masked, (reference c).isSome)
    (value : List Char) : ∃ text, Spells masked text value := by
  induction value with
  | nil => exact ⟨[], .nil⟩
  | cons c value ih =>
    obtain ⟨text, htext⟩ := ih
    by_cases hc : c ∈ masked
    · obtain ⟨name, hname⟩ := Option.isSome_iff_exists.mp (h c hc)
      exact ⟨_, .entity hname htext⟩
    · exact ⟨_, .raw hc htext⟩

lemma mem_all_of_reference {name : String} (h : reference c = some name) : (name, c) ∈ all := by
  unfold reference at h
  split at h <;> simp_all [all]

/-- No entity is the beginning of another one. -/
lemma atStart_all_append (he : e ∈ all) (text : List Char) :
    atStart all (e.1.toList ++ text) = some e := by
  simp only [all, List.mem_cons, List.not_mem_nil, or_false] at he
  rcases he with rfl | rfl | rfl | rfl | rfl <;> rfl

lemma onePass_all_append (he : e ∈ all) (text : List Char) :
    onePass all (e.1.toList ++ text) = e.2 :: onePass all text := by
  have hstart := atStart_all_append he text
  obtain ⟨ps, hps, -⟩ := marked_of_mem_all e he
  rw [hps, List.cons_append] at hstart ⊢
  simp [onePass_of_atStart_eq_some hstart, hps]

variable {masked text value : List Char}

/-- A spelling has no character in it that is masked, unless it is part of entities. -/
lemma Spells.not_mem (h : Spells masked text value) (hc : c ∈ masked)
    (hentities : ∀ e ∈ all, c ∉ e.1.toList) : c ∉ text := by
  induction h with
  | nil => simp
  | raw hd _ ih =>
    rw [List.mem_cons, not_or]
    exact ⟨fun heq => hd (heq ▸ hc), ih⟩
  | entity hname _ ih =>
    rw [List.mem_append, not_or]
    exact ⟨hentities _ (mem_all_of_reference hname), ih⟩

/-- **Decoding reads what is spelled out**, if no ampersand stands for itself. -/
theorem Spells.decode_eq (h : Spells masked text value) (hmasked : '&' ∈ masked) :
    decode text = value := by
  rw [decode_eq_onePass]
  induction h with
  | nil => simp
  | @raw c text value hc _ ih =>
    have hplain : '&' ∉ [c] := by
      rw [List.mem_singleton]
      rintro rfl
      exact hc hmasked
    rw [← ih]
    exact onePass_append marked_of_mem_all hplain text
  | entity hname _ ih => rw [onePass_all_append (mem_all_of_reference hname), ih]

/-- A text without ampersands need not be gone through. -/
lemma decode_eq_self {raw : List Char} (h : '&' ∉ raw) : decode raw = raw := by
  have hkept : onePass all (raw ++ []) = raw ++ onePass all [] := onePass_append marked_of_mem_all h []
  rw [onePass_nil, List.append_nil] at hkept
  rw [decode_eq_onePass, hkept]

/-- **The five replacements are one simultaneous pass**: each entity is replaced where it stands, and
what is put in is not looked at again. So whatever is spelled out is read back, be the special
characters other than the ampersand written as they are or as entities, and a text without ampersands
is its own spelling. -/
theorem decode_simultaneous :
    (∀ raw : List Char, decode raw = onePass all raw) ∧
    (∀ text value : List Char, Spells ['&'] text value → decode text = value) ∧
    ∀ raw : List Char, '&' ∉ raw → decode raw = raw := by
  refine ⟨decode_eq_onePass, fun text value hspells => ?_, fun raw => decode_eq_self⟩
  exact hspells.decode_eq (List.mem_singleton_self '&')

/-- An entity spelled out within an entity is not read as one. -/
theorem decode_nested_reference :
    Spells ['&'] "&amp;lt;>&lt;".toList "&lt;><".toList ∧
      decode "&amp;lt;>&lt;".toList = "&lt;><".toList ∧ decode "a>b".toList = "a>b".toList := by
  have hless : Spells ['&'] ("&lt;".toList ++ []) ['<'] := .entity rfl .nil
  have hrest : Spells ['&'] ('l' :: 't' :: ';' :: '>' :: ("&lt;".toList ++ []))
      ['l', 't', ';', '>', '<'] :=
    .raw (by decide) (.raw (by decide) (.raw (by decide) (.raw (by decide) hless)))
  have hspells : Spells ['&'] "&amp;lt;>&lt;".toList "&lt;><".toList :=
    Spells.entity (rfl : reference '&' = some "&amp;") hrest
  obtain ⟨-, hread, hkept⟩ := decode_simultaneous
  exact ⟨hspells, hread _ _ hspells, hkept _ (by decide)⟩

end Stencil.Markup.Entity

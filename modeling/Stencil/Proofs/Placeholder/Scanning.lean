import Stencil.Proofs.Placeholder.Tokens
import Mathlib.Data.List.Basic

/-!
How a text is cut.

There is exactly one way to cut a text into placeholders and the literal texts between them in which
no placeholder begins inside a literal text and every placeholder is the longest at its place. All
that is done with the placeholders of a text can be read off this cut.
-/

namespace Stencil.Placeholder

/-! ### Cuts -/

/-- A text cut into placeholders, each with the literal text before it, and the literal text after
the last one. -/
structure Cut where
  parts : List (String × String)
  rest : String
deriving DecidableEq, Repr

namespace Cut

/-- The names of the placeholders, in order and with repetitions. -/
def names (cut : Cut) : List String := cut.parts.map Prod.snd

/-- Literal texts, with other texts in the places of the placeholders after them. -/
def weaveParts (rest : String) : List (String × String) → List String → String
  | [], _ => rest
  | (literal, _) :: parts, texts => literal ++ texts.headD "" ++ weaveParts rest parts texts.tail

/-- The cut text, with other texts in the places of its placeholders. -/
def weave (cut : Cut) (texts : List String) : String := weaveParts cut.rest cut.parts texts

/-- The text that was cut. -/
def text (cut : Cut) : String := cut.weave (cut.names.map token)

end Cut

/-- The text begins with the placeholder of the name. -/
def Begins (name : String) (text : List Char) : Prop :=
  IsName name ∧ (token name).toList <+: text

/-- No placeholder begins inside the literal text when it is followed by `after`. -/
def IsLiteral (literal after : String) : Prop :=
  ∀ cs, cs ≠ [] → cs <:+ literal.toList → ∀ name, ¬ Begins name (cs ++ after.toList)

/-- The placeholder of the name is the longest one that begins the text of it and `after`. -/
structure IsLongest (name after : String) : Prop where
  isName : IsName name
  longest : ∀ other, Begins other (token name ++ after).toList → other.length ≤ name.length

/-- The text is cut from left to right. -/
inductive Cut.Scans : Cut → String → Prop
  | rest {literal : String} (hliteral : IsLiteral literal "") : Scans ⟨[], literal⟩ literal
  | placeholder {literal name rest after : String} {parts : List (String × String)}
    (hliteral : IsLiteral literal (token name ++ after)) (hname : IsLongest name after)
    (h : Scans ⟨parts, rest⟩ after) :
    Scans ⟨(literal, name) :: parts, rest⟩ (literal ++ token name ++ after)

/-- The distinct names are those of the list, in the order in which they first appear there. -/
structure FirstAppearances (distinct names : List String) : Prop where
  mem_iff : ∀ n, n ∈ distinct ↔ n ∈ names
  order : distinct.Pairwise fun m n => names.idxOf m < names.idxOf n

/-! ### Where placeholders begin -/

variable {cs ds : List Char} {name literal after text : String}

lemma toList_token (name : String) :
    (token name).toList = '$' :: '(' :: (name.toList ++ [')']) := by
  simp [token]

lemma begins_cons_iff : Begins name ('$' :: '(' :: cs) ↔
    IsName name ∧ ∃ ds, cs = name.toList ++ ')' :: ds := by
  rw [Begins, toList_token, List.prefix_iff_exists_append_eq]
  simp [eq_comm]

/-- A name that is followed by a `)` goes on up to the last one, and so is not shortened. -/
lemma exists_closing_of_symbols {name : List Char} (hname : ∀ c ∈ name, isSymbolChar c)
    (cs : List Char) :
    ∃ name' rest, closing (name ++ ')' :: cs) = some (name', rest) ∧
      name.length ≤ name'.length := by
  induction name with
  | nil =>
    have hparen : isSymbolChar ')' = true := by decide
    rw [List.nil_append, closing, if_pos hparen]
    cases closing cs <;> simp
  | cons c name ih =>
    obtain ⟨hc, hname⟩ := List.forall_mem_cons.mp hname
    obtain ⟨name', rest, hclosing, hlength⟩ := ih hname
    exact ⟨c :: name', rest, by rw [List.cons_append, closing, if_pos hc, hclosing], by simpa⟩

lemma isName_of_closing {c : Char} {name : List Char} (h : closing cs = some (c :: name, ds)) :
    IsName (String.ofList (c :: name)) where
  ne_empty := by simp [← String.toList_inj]
  symbols := by simpa using (ends_of_closing h).1

/-- A placeholder begins at a dollar sign exactly if a name is found after it. -/
lemma exists_begins_iff : (∃ name, Begins name cs) ↔
    ∃ c name ds rest, cs = '$' :: '(' :: ds ∧ closing ds = some (c :: name, rest) := by
  constructor
  · rintro ⟨name, hname, rest, rfl⟩
    obtain ⟨m, rest', hclosing, hlength⟩ := exists_closing_of_symbols hname.symbols rest
    have hpos : 0 < name.toList.length := List.length_pos_iff.mpr (by simpa using hname.ne_empty)
    cases m with
    | nil => exact absurd hpos (Nat.not_lt.mpr hlength)
    | cons c m => exact ⟨c, m, _, rest', by simp [toList_token], hclosing⟩
  · rintro ⟨c, name, ds, rest, rfl, hclosing⟩
    exact ⟨String.ofList (c :: name), begins_cons_iff.mpr ⟨isName_of_closing hclosing, rest,
      by simp [eq_append_of_closing hclosing]⟩⟩

lemma pieces_of_not_begins {c : Char} (h : ∀ name, ¬ Begins name (c :: cs)) :
    pieces (c :: cs) = .char c :: pieces cs := by
  rw [← not_exists, exists_begins_iff] at h
  by_cases hstart : ∃ ds, c = '$' ∧ cs = '(' :: ds
  · obtain ⟨ds, rfl, rfl⟩ := hstart
    exact pieces_dollar fun c name rest hclosing => h ⟨c, name, ds, rest, rfl, hclosing⟩
  · exact pieces_char fun ds hc hcs => hstart ⟨ds, hc, hcs⟩

lemma isLongest_iff : IsLongest name after ↔
    name ≠ "" ∧
      closing (name.toList ++ ')' :: after.toList) = some (name.toList, after.toList) := by
  have hbegins : ∀ other, Begins other (token name ++ after).toList ↔ IsName other ∧
      ∃ ds, name.toList ++ ')' :: after.toList = other.toList ++ ')' :: ds := by
    intro other
    rw [← begins_cons_iff, String.toList_append, toList_token]
    simp
  constructor
  · rintro ⟨hname, hlongest⟩
    refine ⟨hname.ne_empty, ?_⟩
    obtain ⟨m, rest, hclosing, hlength⟩ := exists_closing_of_symbols hname.symbols after.toList
    have hsame := eq_append_of_closing hclosing
    have hm : m ≠ [] := by
      rintro rfl
      have hempty : name.toList = [] := List.length_eq_zero_iff.mp (Nat.le_zero.mp hlength)
      exact hname.ne_empty (by simpa using hempty)
    have hother : IsName (String.ofList m) := ⟨by simpa [← String.toList_inj] using hm,
      by simpa using (ends_of_closing hclosing).1⟩
    have hle := hlongest (String.ofList m) ((hbegins _).mpr ⟨hother, rest, by simpa using hsame⟩)
    have hsize : name.toList.length = m.length := by
      rw [← String.length_toList, String.toList_ofList, ← String.length_toList] at hle
      exact Nat.le_antisymm hlength hle
    obtain ⟨hn, hrest⟩ := List.append_inj hsame hsize
    rw [hclosing, hn, (List.cons.inj hrest).2]
  · rintro ⟨hne, hclosing⟩
    refine ⟨⟨hne, (ends_of_closing hclosing).1⟩, fun other hother => ?_⟩
    obtain ⟨hname, ds, hsame⟩ := (hbegins other).mp hother
    obtain ⟨m, rest, hfound, hlength⟩ := exists_closing_of_symbols hname.symbols ds
    rw [← hsame, hclosing] at hfound
    obtain ⟨rfl, -⟩ := Prod.mk.inj (Option.some.inj hfound)
    rwa [String.length_toList, String.length_toList] at hlength

/-! ### The cut of a text -/

namespace Cut

/-- The character stands before everything else. -/
def push (c : Char) : Cut → Cut
  | ⟨[], rest⟩ => ⟨[], String.singleton c ++ rest⟩
  | ⟨(literal, name) :: parts, rest⟩ => ⟨(String.singleton c ++ literal, name) :: parts, rest⟩

/-- The pieces of a text, with the characters between two placeholders put together. -/
def ofPieces : List Piece → Cut
  | [] => ⟨[], ""⟩
  | .char c :: ps => (ofPieces ps).push c
  | .placeholder name :: ps => ⟨("", name) :: (ofPieces ps).parts, (ofPieces ps).rest⟩

lemma ofPieces_char (cs : List Char) : ofPieces (cs.map .char) = ⟨[], String.ofList cs⟩ := by
  induction cs with
  | nil => rfl
  | cons c cs ih => simp [ofPieces, ih, push]

lemma ofPieces_placeholder (cs : List Char) (name : String) (ps : List Piece) :
    ofPieces (cs.map .char ++ .placeholder name :: ps) =
      ⟨(String.ofList cs, name) :: (ofPieces ps).parts, (ofPieces ps).rest⟩ := by
  induction cs with
  | nil => rfl
  | cons c cs ih => simp [ofPieces, ih, push]

end Cut

lemma pieces_literal (h : IsLiteral literal after) :
    pieces (literal.toList ++ after.toList) = literal.toList.map .char ++ pieces after.toList := by
  have hall : ∀ cs, cs <:+ literal.toList →
      pieces (cs ++ after.toList) = cs.map .char ++ pieces after.toList := by
    intro cs hcs
    induction cs with
    | nil => rfl
    | cons c cs ih =>
      have hfirst := h (c :: cs) (List.cons_ne_nil c cs) hcs
      rw [List.cons_append] at hfirst ⊢
      rw [pieces_of_not_begins hfirst, ih ((List.suffix_cons c cs).trans hcs),
        List.map_cons, List.cons_append]
  exact hall _ List.suffix_rfl

lemma pieces_longest (h : IsLongest name after) :
    pieces (token name ++ after).toList = .placeholder name :: pieces after.toList := by
  obtain ⟨hne, hclosing⟩ := isLongest_iff.mp h
  obtain ⟨c, cs, hname⟩ := List.exists_cons_of_ne_nil (by simpa using hne : name.toList ≠ [])
  have htext : (token name ++ after).toList =
      '$' :: '(' :: (name.toList ++ ')' :: after.toList) := by
    simp [toList_token]
  rw [hname] at hclosing
  rw [htext, hname, pieces_placeholder hclosing, ← hname, String.ofList_toList]

/-- **There is only one cut**, that of the pieces. -/
lemma Cut.Scans.eq_ofPieces {cut : Cut} (h : cut.Scans text) :
    cut = ofPieces (pieces text.toList) := by
  induction h with
  | @rest literal hliteral =>
    have hpieces := pieces_literal hliteral
    rw [String.toList_empty, List.append_nil] at hpieces
    rw [hpieces, pieces, List.append_nil, ofPieces_char, String.ofList_toList]
  | @placeholder literal name rest after parts hliteral hname _ ih =>
    rw [String.append_assoc, String.toList_append, pieces_literal hliteral, pieces_longest hname,
      ofPieces_placeholder, String.ofList_toList, ← ih]

lemma Cut.Scans.push {cut : Cut} (h : cut.Scans text) {c : Char}
    (hc : ∀ name, ¬ Begins name (c :: text.toList)) :
    (cut.push c).Scans (String.singleton c ++ text) := by
  have hmore : ∀ literal after : String, IsLiteral literal after → literal ++ after = text →
      IsLiteral (String.singleton c ++ literal) after := by
    rintro literal after hliteral rfl cs hne hcs name
    rw [String.toList_append, String.toList_singleton, List.singleton_append,
      List.suffix_cons_iff] at hcs
    rcases hcs with rfl | hcs
    · simpa using hc name
    · exact hliteral cs hne hcs name
  cases h with
  | rest hliteral => exact .rest (hmore _ _ hliteral String.append_empty)
  | placeholder hliteral hname h =>
    rw [← String.append_assoc, ← String.append_assoc]
    exact .placeholder (hmore _ _ hliteral (String.append_assoc ..).symm) hname h

/-- **There is a cut**, that of the pieces. -/
lemma scans_ofPieces (cs : List Char) : (Cut.ofPieces (pieces cs)).Scans (String.ofList cs) := by
  have hpush : ∀ (c : Char) (cs : List Char), (Cut.ofPieces (pieces cs)).Scans (String.ofList cs) →
      (¬ ∃ name, Begins name (c :: cs)) →
      (Cut.ofPieces (.char c :: pieces cs)).Scans (String.ofList (c :: cs)) := by
    intro c cs ih hno
    rw [String.ofList_cons]
    exact ih.push (by simpa using hno)
  induction cs using pieces.induct with
  | case1 =>
    rw [pieces]
    exact .rest fun cs hne hcs => absurd (List.suffix_nil.mp hcs) hne
  | case2 cs c name rest h ih =>
    have hlongest : IsLongest (String.ofList (c :: name)) (String.ofList rest) :=
      isLongest_iff.mpr ⟨(isName_of_closing h).ne_empty, by
        rw [String.toList_ofList, String.toList_ofList, ← eq_append_of_closing h, h]⟩
    have hempty : IsLiteral "" (token (String.ofList (c :: name)) ++ String.ofList rest) :=
      fun cs hne hcs => absurd (List.suffix_nil.mp hcs) hne
    have hscans := Cut.Scans.placeholder hempty hlongest ih
    rw [pieces_placeholder h, Cut.ofPieces]
    convert hscans using 1
    simp [← String.toList_inj, toList_token, eq_append_of_closing h]
  | case3 cs h ih =>
    rw [pieces_dollar h]
    refine hpush _ _ ih fun hbegins => ?_
    obtain ⟨c, name, ds, rest, hcs, hclosing⟩ := exists_begins_iff.mp hbegins
    obtain rfl : cs = ds := by simpa using hcs
    exact h c name rest hclosing
  | case4 c cs h ih =>
    rw [pieces_char fun ds hc hcs => h ds hc hcs]
    refine hpush _ _ ih fun hbegins => ?_
    obtain ⟨_, _, ds, _, hcs, -⟩ := exists_begins_iff.mp hbegins
    obtain ⟨hc, hcs⟩ := List.cons.inj hcs
    exact h ds hc hcs

namespace Cut

/-- The only cut of a text. -/
def of (text : String) : Cut := ofPieces (pieces text.toList)

theorem scans_iff {cut : Cut} : cut.Scans text ↔ cut = of text := by
  constructor
  · exact Scans.eq_ofPieces
  · rintro rfl
    simpa [of] using scans_ofPieces text.toList

/-- Nothing of the text is lost. -/
lemma text_of_scans {cut : Cut} (h : cut.Scans text) : cut.text = text := by
  induction h with
  | rest => rfl
  | placeholder _ _ _ ih => exact congrArg _ ih

end Cut

/-! ### What is read off the cut -/

namespace Cut

lemma names_push (c : Char) (cut : Cut) : (cut.push c).names = cut.names := by
  obtain ⟨_ | ⟨⟨literal, name⟩, parts⟩, rest⟩ := cut <;> rfl

lemma weave_push (c : Char) (cut : Cut) :
    (cut.push c).weave = fun texts => String.singleton c ++ cut.weave texts := by
  obtain ⟨_ | ⟨⟨literal, name⟩, parts⟩, rest⟩ := cut
  · rfl
  · funext texts
    simp [push, weave, weaveParts, String.append_assoc]

lemma names_ofPieces (ps : List Piece) : (ofPieces ps).names = ps.filterMap Piece.name? := by
  induction ps with
  | nil => rfl
  | cons p ps ih =>
    rw [List.filterMap_cons, ← ih]
    cases p with
    | char c => exact names_push c (ofPieces ps)
    | placeholder name => rfl

lemma names_of (text : String) : (of text).names = mentions text := names_ofPieces _

/-- What is written in the place of a placeholder is asked for once. -/
lemma join_mapM_fillM {σ : Type} (ask : String → StateM σ (Option String)) (ps : List Piece) :
    String.join <$> ps.mapM (Piece.fillM ask) = (ofPieces ps).weave <$>
      (ofPieces ps).names.mapM fun name => (·.getD (token name)) <$> ask name := by
  induction ps with
  | nil => simp [ofPieces, names, weave, weaveParts]
  | cons p ps ih =>
    cases p with
    | char c =>
      calc String.join <$> (Piece.char c :: ps).mapM (Piece.fillM ask)
          = (String.singleton c ++ ·) <$> (String.join <$> ps.mapM (Piece.fillM ask)) := by
            simp [Piece.fillM]
        _ = _ := by
            rw [ih]
            simp [ofPieces, names_push, weave_push]
    | placeholder name =>
      calc String.join <$> (Piece.placeholder name :: ps).mapM (Piece.fillM ask)
          = (do
              let value ← ask name
              (value.getD (token name) ++ ·) <$> (String.join <$> ps.mapM (Piece.fillM ask))) := by
            simp [Piece.fillM]
        _ = _ := by
            rw [ih]
            simp [ofPieces, names, weave, weaveParts]

end Cut

lemma substituteM_eq {σ : Type} (ask : String → StateM σ (Option String)) (text : String) :
    substituteM ask text = (Cut.of text).weave <$>
      (Cut.of text).names.mapM fun name => (·.getD (token name)) <$> ask name := by
  calc substituteM ask text
      = String.join <$> (pieces text.toList).mapM (Piece.fillM ask) := by simp [substituteM]
    _ = _ := Cut.join_mapM_fillM ask (pieces text.toList)

lemma substitute_eq_weave (value? : String → Option String) (text : String) :
    substitute value? text =
      (Cut.of text).weave ((Cut.of text).names.map fun n => (value? n).getD (token n)) := by
  have hpure := substituteM_eq (σ := Unit) (fun name => return value? name) text
  rw [substituteM_pure] at hpure
  simp only [map_pure, List.mapM_pure] at hpure
  exact congrArg (fun result : StateM Unit String => (result ()).1) hpure

/-- A text is not changed if every placeholder has no value or itself as its value. -/
lemma substitute_eq_self {value? : String → Option String}
    (h : ∀ n ∈ (Cut.of text).names, value? n = none ∨ value? n = some (token n)) :
    substitute value? text = text := by
  have hsame : (Cut.of text).names.map (fun n => (value? n).getD (token n)) =
      (Cut.of text).names.map token := by
    refine List.map_congr_left fun n hn => ?_
    rcases h n hn with hv | hv <;> rw [hv] <;> rfl
  rw [substitute_eq_weave, hsame]
  exact Cut.text_of_scans (Cut.scans_iff.mpr rfl)

/-! ### References -/

/-- Names that are left out do not change which of two names comes first. -/
lemma idxOf_lt_of_filter {p : String → Bool} {names : List String} {m n : String} (hm : p m)
    (hn : p n) (h : (names.filter p).idxOf m < (names.filter p).idxOf n) :
    names.idxOf m < names.idxOf n := by
  induction names with
  | nil => simp at h
  | cons a names ih =>
    by_cases ha : p a
    · rw [List.filter_cons_of_pos ha, List.idxOf_cons, List.idxOf_cons] at h
      rw [List.idxOf_cons, List.idxOf_cons]
      grind
    · rw [List.filter_cons_of_neg ha] at h
      have hm' : a ≠ m := fun heq => ha (heq ▸ hm)
      have hn' : a ≠ n := fun heq => ha (heq ▸ hn)
      rw [List.idxOf_cons_ne _ hm', List.idxOf_cons_ne _ hn']
      exact Nat.succ_lt_succ (ih h)

lemma firstAppearances_eraseDups (names : List String) :
    FirstAppearances names.eraseDups names := by
  refine ⟨fun n => List.mem_eraseDups, ?_⟩
  induction hlength : names.length using Nat.strong_induction_on generalizing names with
  | h length ih =>
    cases names with
    | nil => simp
    | cons a names =>
      -- what follows the first name are the appearances of the other names
      have hless : (names.filter fun b => !b == a).length < length := by
        have hle := List.length_filter_le (fun b => !b == a) names
        rw [List.length_cons] at hlength
        omega
      have hother : ∀ n ∈ (names.filter fun b => !b == a).eraseDups, a ≠ n := by
        rintro n hn rfl
        simpa using (List.mem_filter.mp (List.mem_eraseDups.mp hn)).2
      rw [List.eraseDups_cons, List.pairwise_cons]
      refine ⟨fun n hn => ?_, (ih _ hless _ rfl).imp_of_mem fun {m n} hm hn hlt => ?_⟩
      · rw [List.idxOf_cons_self, List.idxOf_cons_ne _ (hother n hn)]
        exact Nat.succ_pos _
      · rw [List.idxOf_cons_ne _ (hother m hm), List.idxOf_cons_ne _ (hother n hn)]
        exact Nat.succ_lt_succ (idxOf_lt_of_filter (by simpa using (hother m hm).symm)
          (by simpa using (hother n hn).symm) hlt)

lemma isName_of_mem_names {cut : Cut} (h : cut.Scans text) : ∀ n ∈ cut.names, IsName n := by
  induction h with
  | rest => simp [Cut.names]
  | placeholder _ hname _ ih => exact List.forall_mem_cons.mpr ⟨hname.isName, ih⟩

/-- Exactly the placeholders of names refer to what they are written with. -/
lemma references_token_iff : references (token name) = [name] ↔ IsName name := by
  constructor
  · intro h
    have hmem : name ∈ references (token name) := h ▸ List.mem_singleton_self name
    rw [references, List.mem_eraseDups, ← Cut.names_of] at hmem
    exact isName_of_mem_names (Cut.scans_iff.mpr rfl) name hmem
  · intro hname
    have hlongest : IsLongest name "" := isLongest_iff.mpr ⟨hname.ne_empty,
      closing_append hname.symbols (by simp)⟩
    have hpieces := pieces_longest hlongest
    rw [String.append_empty] at hpieces
    simp [references, mentions, hpieces, pieces, Piece.name?, List.eraseDups_cons]

/-! ### The main result -/

/-- **A text has exactly one cut.** Nothing of the text is lost in it; the names that the text
refers to are those of the cut; and the text with its placeholders replaced is the cut with texts in
the places of the placeholders, each of which is asked for once and in order. So a text whose
placeholders have no values, or themselves as their values, stays as it is, and the placeholder of a
name refers to it. -/
theorem exists_cut :
    (∀ text : String, ∃ cut : Cut, (∀ other : Cut, other.Scans text ↔ other = cut) ∧
      cut.text = text ∧ FirstAppearances (references text) cut.names ∧
      (∀ (σ : Type) (ask : String → StateM σ (Option String)), substituteM ask text =
        cut.weave <$> cut.names.mapM fun name => (·.getD (token name)) <$> ask name) ∧
      ∀ value? : String → Option String,
        substitute value? text = cut.weave (cut.names.map fun n => (value? n).getD (token n)) ∧
        ((∀ n ∈ cut.names, value? n = none ∨ value? n = some (token n)) →
          substitute value? text = text)) ∧
    ∀ name : String, references (token name) = [name] ↔ IsName name := by
  refine ⟨fun text => ⟨.of text, fun other => Cut.scans_iff, ?_, ?_, fun σ ask => ?_,
    fun value? => ?_⟩, fun name => references_token_iff⟩
  · exact Cut.text_of_scans (Cut.scans_iff.mpr rfl)
  · rw [Cut.names_of]
    exact firstAppearances_eraseDups (mentions text)
  · exact substituteM_eq ask text
  · exact ⟨substitute_eq_weave value? text, substitute_eq_self⟩

/-- Only the placeholder of `a` has a value, which is the placeholder itself. -/
def itselfA (name : String) : Option String := if name = "a" then some (token name) else none

/-- The first placeholder takes the parenthesis that closes the call. -/
theorem exists_cut_of_call : ∃ cut : Cut, cut.Scans "f($(a))-$(a)" ∧ cut.names = ["a)", "a"] ∧
    (∀ n ∈ cut.names, itselfA n = none ∨ itselfA n = some (token n)) ∧
    substitute itselfA "f($(a))-$(a)" = "f($(a))-$(a)" := by
  obtain ⟨cut, hunique, -, -, -, hvalues⟩ := exists_cut.1 "f($(a))-$(a)"
  obtain rfl : Cut.of "f($(a))-$(a)" = cut := (hunique _).mp (Cut.scans_iff.mpr rfl)
  have hnames : (Cut.of "f($(a))-$(a)").names = ["a)", "a"] := by decide +kernel
  have hitself : ∀ n ∈ (Cut.of "f($(a))-$(a)").names,
      itselfA n = none ∨ itselfA n = some (token n) := by
    rw [hnames]
    decide
  exact ⟨_, Cut.scans_iff.mpr rfl, hnames, hitself, (hvalues itselfA).2 hitself⟩

end Stencil.Placeholder

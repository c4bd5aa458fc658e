import Mathlib.Data.List.TakeWhile
import Stencil.Markup.Lexeme
import Stencil.Proofs.Markup.Writing

/-!
Lexing what has been written out.

A gap, however it is made up, is skipped as a whole, and a word is read as its token if the text
after it does not continue it. So whatever the way of writing, the tokens of the text are those that
have been written out.
-/

namespace Stencil.Markup

/-! ### Characters -/

lemma isNameStart_iff {c : Char} : isNameStart c = true ↔ NameStart c := by
  have hclasses : c.isAlpha = (decide ('A' ≤ c ∧ c ≤ 'Z') || 'a' ≤ c && c ≤ 'z') := rfl
  simp only [isNameStart, NameStart, hclasses, Bool.or_eq_true, Bool.and_eq_true,
    decide_eq_true_eq, beq_iff_eq]
  tauto

lemma isNameChar_iff {c : Char} : isNameChar c = true ↔ NameRest c := by
  have hclasses : c.isAlphanum = (c.isAlpha || '0' ≤ c && c ≤ '9') := rfl
  have hstart := isNameStart_iff (c := c)
  simp only [isNameStart, Bool.or_eq_true, beq_iff_eq] at hstart
  simp only [isNameChar, NameRest, ← hstart, hclasses, Bool.or_eq_true, Bool.and_eq_true,
    decide_eq_true_eq, beq_iff_eq, List.mem_cons, List.not_mem_nil, or_false]
  tauto

lemma isLayout_iff {c : Char} : isLayout c = true ↔ c ∈ [' ', '\t', '\r', '\n'] := by
  simp only [isLayout, Bool.or_eq_true, beq_iff_eq, List.mem_cons, List.not_mem_nil, or_false]
  tauto

lemma takeWhile_append_eq {p : Char → Bool} {cs rest : List Char} (hcs : ∀ c ∈ cs, p c = true)
    (hrest : ∀ c ∈ rest.head?, p c = false) : (cs ++ rest).takeWhile p = cs := by
  rw [List.takeWhile_append_of_pos hcs]
  cases rest with
  | nil => simp
  | cons c rest => simp [hrest c rfl]

lemma takeWhile_ne_append {c : Char} {cs : List Char} (h : c ∉ cs) (rest : List Char) :
    (cs ++ c :: rest).takeWhile (· ≠ c) = cs := by
  have hcs : ∀ d ∈ cs, d ≠ c := fun d hd heq => h (heq ▸ hd)
  exact takeWhile_append_eq (by simpa using hcs) (by simp)

/-! ### Gaps -/

/-- The tokens of a text that starts at the byte `start`. -/
def tokensFrom (start : Nat) (cs : List Char) : List (Located Token) :=
  placeTokens start (lexemes cs)

lemma tokens_ofList (cs : List Char) : tokens (String.ofList cs) = tokensFrom 0 cs := by
  rw [tokens, String.toList_ofList, tokensFrom]

variable {c : Char} {cs w rest : List Char}

lemma lexemes_append {role : Role} (h : Lexeme.measure c (w ++ rest) = (role, w.length)) :
    lexemes (c :: (w ++ rest)) = ⟨role, c :: w⟩ :: lexemes rest := by
  rw [lexemes, h]
  simp

lemma tokensFrom_layout (h : Lexeme.measure c (w ++ rest) = (.layout, w.length)) (start : Nat) :
    tokensFrom start (c :: w ++ rest) = tokensFrom (start + byteSize (c :: w)) rest := by
  rw [tokensFrom, List.cons_append, lexemes_append h]
  rfl

lemma tokensFrom_token {t : Token} (h : Lexeme.measure c (w ++ rest) = (.token t, w.length))
    (start : Nat) :
    tokensFrom start (c :: w ++ rest) = ⟨t, ⟨start, start + byteSize (c :: w)⟩⟩ ::
      tokensFrom (start + byteSize (c :: w)) rest := by
  rw [tokensFrom, List.cons_append, lexemes_append h]
  rfl

lemma tokensFrom_run (hw : ∀ c ∈ w, isLayout c = true)
    (hrest : ∀ c ∈ rest.head?, isLayout c = false) (start : Nat) :
    tokensFrom start (w ++ rest) = tokensFrom (start + byteSize w) rest := by
  cases w with
  | nil => rfl
  | cons c w =>
    rw [List.forall_mem_cons] at hw
    exact tokensFrom_layout (by simp [Lexeme.measure, hw.1, takeWhile_append_eq hw.2 hrest]) start

lemma tokensFrom_space (hc : isLayout c = true) (start : Nat) :
    tokensFrom start (c :: cs) = tokensFrom (start + c.utf8Size) cs := by
  have hrun : ∀ d ∈ cs.takeWhile isLayout, isLayout d = true := fun d hd =>
    List.mem_takeWhile_imp hd
  have hrest : ∀ d ∈ (cs.dropWhile isLayout).head?, isLayout d = false := by
    have hstop := List.head?_dropWhile_not isLayout cs
    grind
  have hmore : ∀ d ∈ c :: cs.takeWhile isLayout, isLayout d = true :=
    List.forall_mem_cons.mpr ⟨hc, hrun⟩
  have hfirst := tokensFrom_run hmore hrest start
  have hsecond := tokensFrom_run hrun hrest (start + c.utf8Size)
  rw [List.cons_append, List.takeWhile_append_dropWhile] at hfirst
  rw [List.takeWhile_append_dropWhile] at hsecond
  rw [hfirst, hsecond, byteSize_cons, Nat.add_assoc]

lemma CommentBody.tail {body : List Char} (h : CommentBody (c :: body)) : CommentBody body where
  single hpair := h.single (hpair.trans (List.suffix_cons c body).isInfix)
  last hlast := by
    cases body with
    | nil => simp at hlast
    | cons d body => exact h.last (by simpa using hlast)

/-- A comment ends where its body does, wherever the hyphens of the body are. -/
lemma commentEnd_append {body : List Char} (h : CommentBody body) (rest : List Char) :
    Lexeme.commentEnd (body ++ '-' :: '-' :: '>' :: rest) = (true, body.length + 3) := by
  fun_induction Lexeme.commentEnd body with
  | case1 => rfl
  | case2 => exact absurd ⟨[], _, rfl⟩ h.single
  | case3 => exact absurd ⟨[], _, rfl⟩ h.single
  | case4 d body _ hd _ _ _ ih =>
    -- a hyphen is read together with the character after it, which is not a hyphen
    have hrest := ih h.tail.tail
    simp_all [Lexeme.commentEnd]
  | case5 c body _ _ hc _ _ _ ih =>
    have hhyphen : c ≠ '-' := by
      rintro rfl
      cases body with
      | nil => exact h.last rfl
      | cons d body => exact hc d body rfl rfl
    have hrest := ih h.tail
    simp_all [Lexeme.commentEnd]

lemma prologEnd_append {body : List Char} (h : '?' ∉ body) (rest : List Char) :
    Lexeme.prologEnd (body ++ '?' :: '>' :: rest) = (true, body.length + 2) := by
  simp only [Lexeme.prologEnd, takeWhile_ne_append h, List.drop_left]

lemma measure_less (cs : List Char) : Lexeme.measure '<' cs = Lexeme.afterLess cs := rfl

lemma measure_comment {body : List Char} (h : CommentBody body) (rest : List Char) :
    Lexeme.measure '<' (['!', '-', '-'] ++ body ++ ['-', '-', '>'] ++ rest) =
      (.layout, (['!', '-', '-'] ++ body ++ ['-', '-', '>']).length) := by
  simp [measure_less, Lexeme.afterLess, commentEnd_append h, Lexeme.layoutIf]

lemma measure_prolog {body : List Char} (h : '?' ∉ body) (rest : List Char) :
    Lexeme.measure '<' (['?'] ++ body ++ ['?', '>'] ++ rest) =
      (.layout, (['?'] ++ body ++ ['?', '>']).length) := by
  simp [measure_less, Lexeme.afterLess, prologEnd_append h, Lexeme.layoutIf]

/-- No token stands in a gap. -/
lemma tokensFrom_gap {gap : List Char} (h : Gap gap) (start : Nat) (rest : List Char) :
    tokensFrom start (gap ++ rest) = tokensFrom (start + byteSize gap) rest := by
  induction h generalizing start with
  | nil => rfl
  | space hc _ ih =>
    rw [List.cons_append, tokensFrom_space (isLayout_iff.mpr hc), ih, byteSize_cons, Nat.add_assoc]
  | @comment body cs hbody _ ih =>
    have hskip := tokensFrom_layout (measure_comment hbody (cs ++ rest)) start
    simpa [ih, byteSize_append, Nat.add_assoc] using hskip
  | @prolog body cs hbody _ ih =>
    have hskip := tokensFrom_layout (measure_prolog hbody (cs ++ rest)) start
    simpa [ih, byteSize_append, Nat.add_assoc] using hskip

/-! ### Tokens -/

/-- The token does not go on in the text that follows it. -/
def Token.EndsBefore (t : Token) (rest : List Char) : Prop :=
  match t with
  | .name _ => ∀ c ∈ rest.head?, isNameChar c = false
  | .tagOpen => ∀ c ∈ rest.head?, c ∉ ['?', '!', '/']
  | _ => True

lemma isLayout_eq_false_of_nameStart (h : NameStart c) : isLayout c = false := by
  by_contra hlayout
  rw [Bool.not_eq_false, isLayout_iff] at hlayout
  rw [← isNameStart_iff] at h
  simp only [List.mem_cons, List.not_mem_nil, or_false] at hlayout
  rcases hlayout with rfl | rfl | rfl | rfl <;> simp [isNameStart] at h

lemma afterLess_of_endsBefore (h : Token.tagOpen.EndsBefore rest) :
    Lexeme.afterLess rest = (.token .tagOpen, 0) := by
  unfold Lexeme.afterLess
  split <;> simp_all [Token.EndsBefore]

lemma measure_name (hc : NameStart c) (hcs : ∀ d ∈ cs, NameRest d)
    (hrest : ∀ c ∈ rest.head?, isNameChar c = false) :
    Lexeme.measure c (cs ++ rest) = (.token (.name (String.ofList (c :: cs))), cs.length) := by
  have hmore := takeWhile_append_eq (fun d hd => isNameChar_iff.mpr (hcs d hd)) hrest
  simp [Lexeme.measure, isLayout_eq_false_of_nameStart hc, isNameStart_iff.mpr hc, hmore]

/-- A string is read up to the next quote of its kind. -/
lemma afterQuote_raw {q : Char} {raw : List Char} (hraw : q ∉ raw) (rest : List Char) :
    Lexeme.afterQuote q (raw ++ [q] ++ rest) =
      (.token (.string (String.ofList (Entity.decode raw))), (raw ++ [q]).length) := by
  rw [List.append_assoc, List.singleton_append]
  simp only [Lexeme.afterQuote, takeWhile_ne_append hraw]
  simp

lemma afterQuote_append {q : Char} {value text : List Char} (hq : q = '"' ∨ q = '\'')
    (h : Entity.Spells ['&', q] text value) (rest : List Char) :
    Lexeme.afterQuote q (text ++ [q] ++ rest) =
      (.token (.string (String.ofList value)), (text ++ [q]).length) := by
  have hentities : ∀ e ∈ Entity.all, q ∉ e.1.toList := by
    rcases hq with rfl | rfl <;> decide
  have hplain : q ∉ text := h.not_mem (by simp) hentities
  rw [afterQuote_raw hplain, h.decode_eq (List.mem_cons_self)]

namespace Token.Written

variable {t : Token}

/-- A token is read where it is written. -/
lemma exists_measure (h : t.Written w) (hrest : t.EndsBefore rest) :
    ∃ c cs, w = c :: cs ∧ Lexeme.measure c (cs ++ rest) = (.token t, cs.length) := by
  cases h with
  | tagOpen => exact ⟨_, _, rfl, afterLess_of_endsBefore hrest⟩
  | name hc hcs => exact ⟨_, _, rfl, measure_name hc hcs hrest⟩
  | string hq h =>
    refine ⟨_, _, rfl, ?_⟩
    have hquote := afterQuote_append hq h rest
    rcases hq with rfl | rfl <;> exact hquote
  | _ => exact ⟨_, _, rfl, rfl⟩

lemma tokensFrom_append (h : t.Written w) (hrest : t.EndsBefore rest) (start : Nat) :
    tokensFrom start (w ++ rest) = ⟨t, ⟨start, start + byteSize w⟩⟩ ::
      tokensFrom (start + byteSize w) rest := by
  obtain ⟨c, cs, rfl, hmeasure⟩ := h.exists_measure hrest
  exact tokensFrom_token hmeasure start

/-- A token is not continued by one that it does not clash with. -/
lemma endsBefore {u : Token} (h : u.Written w) (hclash : ¬ t.Clash u) (rest : List Char) :
    t.EndsBefore (w ++ rest) := by
  cases t with
  | name a =>
    cases h with
    | name => exact absurd trivial hclash
    | string hq => rcases hq with rfl | rfl <;> simp [EndsBefore, isNameChar]
    | _ => simp [EndsBefore, isNameChar]
  | tagOpen =>
    cases h with
    | selfClose => exact absurd trivial hclash
    | @name c cs hc =>
      have hother : ∀ d ∈ ['?', '!', '/'], isNameStart d = false := by simp [isNameStart]
      have hfirst : c ∉ ['?', '!', '/'] := fun hm => by
        rw [← isNameStart_iff, hother c hm] at hc
        contradiction
      simpa [EndsBefore] using hfirst
    | string hq => rcases hq with rfl | rfl <;> simp [EndsBefore]
    | _ => simp [EndsBefore]
  | _ => trivial

end Token.Written

/-! ### Texts -/

/-- Every token ends before a gap. -/
lemma Gap.endsBefore {gap : List Char} (h : Gap gap) (hgap : gap ≠ []) (t : Token)
    (rest : List Char) : t.EndsBefore (gap ++ rest) := by
  have hfirst : ∃ c cs, gap = c :: cs ∧ c ∈ [' ', '\t', '\r', '\n', '<'] := by
    cases h with
    | nil => exact absurd rfl hgap
    | space hc => exact ⟨_, _, rfl, List.mem_append_left ['<'] hc⟩
    | _ => exact ⟨_, _, rfl, by simp⟩
  obtain ⟨c, cs, rfl, hc⟩ := hfirst
  have hname : ∀ d ∈ [' ', '\t', '\r', '\n', '<'], isNameChar d = false := by simp [isNameChar]
  have hless : ∀ d ∈ [' ', '\t', '\r', '\n', '<'], d ∉ ['?', '!', '/'] := by simp
  cases t with
  | name => simpa [Token.EndsBefore] using hname c hc
  | tagOpen => simpa [Token.EndsBefore] using hless c hc
  | _ => trivial

section Printed

variable {start : Nat} {us : List (Located Token)} {gap text : List Char}

lemma Printed.endsBefore {t : Token} (h : Printed start us text) (hgap : Gap gap)
    (hclash : gap = [] → ∀ u ∈ us.head?, ¬ t.Clash u.value) : t.EndsBefore (gap ++ text) := by
  by_cases hempty : gap = []
  · subst hempty
    cases h with
    | nil => cases t <;> simp [Token.EndsBefore]
    | cons hword =>
      rw [List.nil_append, List.append_assoc]
      exact hword.endsBefore (hclash rfl _ rfl) _
  · exact hgap.endsBefore hempty t text

/-- The tokens that have been written out are read from left to right. -/
lemma Printed.tokensFrom_eq (h : Printed start us text) : tokensFrom start text = us := by
  induction h with
  | nil => simp [tokensFrom, lexemes, placeTokens]
  | @cons start t us word gap text hword hgap hclash h ih =>
    have hends := h.endsBefore hgap hclash
    rw [List.append_assoc, hword.tokensFrom_append hends, tokensFrom_gap hgap, ih]

/-- Every list of tokens with proper names is what some text is lexed into. -/
theorem exists_values_tokens_eq {ts : List Token} (h : ∀ t ∈ ts, t.Proper) :
    ∃ source, values (tokens source) = ts := by
  obtain ⟨us, text, rfl, htext⟩ := exists_printed h 0
  exact ⟨String.ofList text, by rw [tokens_ofList, htext.tokensFrom_eq]⟩

/-- **Lexing undoes writing**: the tokens of a text are those that have been written out, each at
its place. -/
theorem tokens_printed (hgap : Gap gap) (h : Printed (byteSize gap) us text) :
    tokens (String.ofList (gap ++ text)) = us := by
  rw [tokens_ofList, tokensFrom_gap hgap, Nat.zero_add, h.tokensFrom_eq]

end Printed

/-- A tag with special characters in its value and a prolog before its end. -/
def oddTag : List Char :=
  ['<', 'k', ' ', 'v', '=', '\'', 'é', '"', '&', 'a', 'm', 'p', ';', '&', 'l', 't', ';', '\'',
    '<', '?', 'p', '?', '>', '/', '>']

/-- The tokens of the odd tag, after a comment of thirteen bytes. -/
def oddTokens : List (Located Token) :=
  [⟨.tagOpen, ⟨13, 14⟩⟩, ⟨.name "k", ⟨14, 15⟩⟩, ⟨.name "v", ⟨16, 17⟩⟩, ⟨.equals, ⟨17, 18⟩⟩,
    ⟨.string "é\"&<", ⟨18, 32⟩⟩, ⟨.selfClose, ⟨37, 39⟩⟩]

/-- A comment with hyphens in its body. -/
def oddComment : List Char := ['<', '!', '-', '-', '-', 'a', '-', ' ', '>', 'b', '-', '-', '>']

lemma gap_oddComment : Gap oddComment :=
  @Gap.comment ['-', 'a', '-', ' ', '>', 'b'] [] ⟨by decide, by decide⟩ .nil

lemma printed_oddTag : Printed 13 oddTokens oddTag := by
  have hvalue : Entity.Spells ['&', '\'']
      ['é', '"', '&', 'a', 'm', 'p', ';', '&', 'l', 't', ';'] ['é', '"', '&', '<'] :=
    .raw (by decide) <| .raw (by decide) <| .entity (c := '&') rfl <| .entity (c := '<') rfl .nil
  have hspace : Gap [' '] := .space (by decide) .nil
  have hprolog : Gap ['<', '?', 'p', '?', '>'] := @Gap.prolog ['p'] [] (by decide) .nil
  have hletter : ∀ c : Char, isNameStart c = true → (Token.name (String.ofList [c])).Written [c] :=
    fun c hc => .name (isNameStart_iff.mp hc) (by simp)
  refine @Printed.cons 13 .tagOpen _ ['<'] [] _ .tagOpen .nil (by simp [Token.Clash]) ?_
  refine @Printed.cons 14 (.name "k") _ ['k'] [' '] _ (hletter 'k' rfl) hspace (by simp) ?_
  refine @Printed.cons 16 (.name "v") _ ['v'] [] _ (hletter 'v' rfl) .nil (by simp [Token.Clash]) ?_
  refine @Printed.cons 17 .equals _ ['='] [] _ .equals .nil (by simp [Token.Clash]) ?_
  refine @Printed.cons 18 (.string "é\"&<") _ _ ['<', '?', 'p', '?', '>'] _
    (.string (.inr rfl) hvalue) hprolog (by simp) ?_
  exact @Printed.cons 37 .selfClose _ ['/', '>'] [] _ .selfClose .nil (by simp) .nil

theorem tokens_oddTag : Gap oddComment ∧ Printed (byteSize oddComment) oddTokens oddTag ∧
    tokens (String.ofList (oddComment ++ oddTag)) = oddTokens :=
  ⟨gap_oddComment, printed_oddTag, tokens_printed gap_oddComment printed_oddTag⟩

end Stencil.Markup

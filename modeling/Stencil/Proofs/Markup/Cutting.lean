import Mathlib.Data.List.Infix
import Stencil.Proofs.Markup.Lexing
import Stencil.Proofs.Markup.Reading

/-!
What a text consists of.

The lexer cuts a text into tokens, layout and stretches that it drops. What it drops are characters
that start nothing, and quotes, comments and prologs without a proper end. A text is clean if there
is any way at all to put it together from tokens, white space, comments and prologs, and the lexer
finds such a way if there is one. A document is read from the tokens alone, so that a text with
something else in it can be accepted too.
-/

namespace Stencil.Markup

/-! ### Stretches of text -/

/-- The word is read as the token. Unlike a value that has been written out, a value may have any
characters in it except the quote around it. -/
inductive Token.Word : Token → List Char → Prop
  | tagOpen : Word .tagOpen ['<']
  | closeTagOpen : Word .closeTagOpen ['<', '/']
  | tagClose : Word .tagClose ['>']
  | selfClose : Word .selfClose ['/', '>']
  | equals : Word .equals ['=']
  | name {c : Char} {cs : List Char} (hc : NameStart c) (hcs : ∀ d ∈ cs, NameRest d) :
    Word (.name (String.ofList (c :: cs))) (c :: cs)
  | string {q : Char} {raw : List Char} (hq : q = '"' ∨ q = '\'') (hraw : q ∉ raw) :
    Word (.string (String.ofList (Entity.decode raw))) (q :: (raw ++ [q]))

/-- The text is nothing but tokens, white space, whole comments and whole prologs. -/
inductive Clean : List Char → Prop
  | nil : Clean []
  | token {t : Token} {word cs : List Char} (hword : t.Word word) (h : Clean cs) :
    Clean (word ++ cs)
  | space {c : Char} {cs : List Char} (hc : c ∈ [' ', '\t', '\r', '\n']) (h : Clean cs) :
    Clean (c :: cs)
  | comment {body cs : List Char} (hbody : CommentBody body) (h : Clean cs) :
    Clean (['<', '!', '-', '-'] ++ body ++ ['-', '-', '>'] ++ cs)
  | prolog {body cs : List Char} (hbody : '?' ∉ body) (h : Clean cs) :
    Clean (['<', '?'] ++ body ++ ['?', '>'] ++ cs)

/-- The stretch of text, with `rest` after it, is not part of anything: it is a character that
starts no token and no layout, or something that does not end as it should. -/
inductive Dropped : List Char → List Char → Prop
  | stray {c : Char} {rest : List Char} (hname : ¬ NameStart c)
    (hc : c ∉ [' ', '\t', '\r', '\n', '<', '>', '=', '/', '"', '\'']) : Dropped [c] rest
  | slash {rest : List Char} (hrest : rest.head? ≠ some '>') : Dropped ['/'] rest
  /-- A quote that is not closed. -/
  | quote {q : Char} {raw : List Char} (hq : q = '"' ∨ q = '\'') (hraw : q ∉ raw) :
    Dropped (q :: raw) []
  /-- A comment that does not end. -/
  | openComment {body : List Char} (hbody : ¬ ['-', '-'] <:+: body) :
    Dropped (['<', '!', '-', '-'] ++ body) []
  /-- A comment up to two hyphens in it that do not end it. -/
  | badComment {body rest : List Char} (hbody : CommentBody body)
    (hrest : rest.head? ≠ some '>') : Dropped (['<', '!', '-', '-'] ++ body ++ ['-', '-']) rest
  /-- A prolog that does not end. -/
  | openProlog {body : List Char} (hbody : '?' ∉ body) : Dropped (['<', '?'] ++ body) []
  /-- A prolog up to a question mark in it that does not end it. -/
  | badProlog {body rest : List Char} (hbody : '?' ∉ body) (hrest : rest.head? ≠ some '>') :
    Dropped (['<', '?'] ++ body ++ ['?']) rest

/-- The stretch of text, with `rest` after it, is what the role says. -/
def Role.Fits (text rest : List Char) : Role → Prop
  | .token t => t.Word text
  | .layout => Gap text
  | .dropped => Dropped text rest

/-- The text is cut into the lexemes, and each of them is what its role says. -/
inductive Cut : List Lexeme → List Char → Prop
  | nil : Cut [] []
  | cons {role : Role} {text rest : List Char} {ls : List Lexeme} (hrole : role.Fits text rest)
    (h : Cut ls rest) : Cut (⟨role, text⟩ :: ls) (text ++ rest)

/-! ### Ends of comments and prologs -/

/-- Reading on up to the first mark, which a `>` should follow, comes to a proper end or not, after
so many characters. -/
inductive Ends (Body : List Char → Prop) (mark : List Char) : List Char → Bool × Nat → Prop
  | never {cs : List Char} (h : ¬ mark <:+: cs) : Ends Body mark cs (false, cs.length)
  | badly {body rest : List Char} (hbody : Body body) (hrest : rest.head? ≠ some '>') :
    Ends Body mark (body ++ (mark ++ rest)) (false, body.length + mark.length)
  | well {body rest : List Char} (hbody : Body body) :
    Ends Body mark (body ++ (mark ++ '>' :: rest)) (true, body.length + (mark.length + 1))

variable {c : Char} {cs rest w : List Char}

lemma commentBody_nil : CommentBody [] := ⟨by simp, by simp⟩

lemma CommentBody.cons {body : List Char} (hc : c ≠ '-') (h : CommentBody body) :
    CommentBody (c :: body) where
  single hpair := by
    obtain hprefix | hpart := List.infix_cons_iff.mp hpair
    · exact hc (List.cons_prefix_cons.mp hprefix).1.symm
    · exact h.single hpart
  last hlast := by
    cases body with
    | nil => exact hc (by simpa using hlast)
    | cons d body => exact h.last (by simpa using hlast)

lemma CommentBody.hyphen_cons {body : List Char} (hc : c ≠ '-') (h : CommentBody body) :
    CommentBody ('-' :: c :: body) where
  single hpair := by
    obtain hprefix | hpart := List.infix_cons_iff.mp hpair
    · exact hc (List.cons_prefix_cons.mp (List.cons_prefix_cons.mp hprefix).2).1.symm
    · exact (h.cons hc).single hpart
  last hlast := (h.cons hc).last (by simpa using hlast)

lemma not_hyphens_infix_cons (hc : c ≠ '-') (h : ¬ ['-', '-'] <:+: cs) :
    ¬ ['-', '-'] <:+: c :: cs := by
  rw [List.infix_cons_iff, List.cons_prefix_cons]
  rintro (⟨heq, -⟩ | hpart)
  · exact hc heq.symm
  · exact h hpart

lemma not_hyphens_infix_hyphen_cons (hc : c ≠ '-') (h : ¬ ['-', '-'] <:+: cs) :
    ¬ ['-', '-'] <:+: '-' :: c :: cs := by
  rw [List.infix_cons_iff, List.cons_prefix_cons, List.cons_prefix_cons]
  rintro (⟨-, heq, -⟩ | hpart)
  · exact hc heq.symm
  · exact not_hyphens_infix_cons hc h hpart

/-- A comment is read up to the first two hyphens in a row. -/
lemma ends_commentEnd (cs : List Char) :
    Ends CommentBody ['-', '-'] cs (Lexeme.commentEnd cs) := by
  fun_induction Lexeme.commentEnd cs with
  | case1 => exact .never (by simp)
  | case2 rest => exact .well commentBody_nil
  | case3 rest hrest =>
    refine .badly commentBody_nil fun hhead => ?_
    obtain ⟨tail, rfl⟩ := List.head?_eq_some_iff.mp hhead
    exact hrest tail rfl
  | case4 d cs _ hd whole n hn ih =>
    -- a hyphen is read together with the character after it, which is not a hyphen
    rw [hn] at ih
    cases ih with
    | never h => exact .never (not_hyphens_infix_hyphen_cons hd h)
    | badly hbody hrest => exact .badly (hbody.hyphen_cons hd) hrest
    | well hbody => exact .well (hbody.hyphen_cons hd)
  | case5 c cs _ _ hc whole n hn ih =>
    rw [hn] at ih
    by_cases hhyphen : c = '-'
    · -- a hyphen that is read alone is the last character
      obtain rfl : cs = [] := by
        cases cs with
        | nil => rfl
        | cons d cs => exact (hc d cs hhyphen rfl).elim
      obtain ⟨rfl, rfl⟩ := Prod.mk.inj hn
      exact .never (by simp [hhyphen, List.infix_cons_iff])
    · cases ih with
      | never h => exact .never (not_hyphens_infix_cons hhyphen h)
      | badly hbody hrest => exact .badly (hbody.cons hhyphen) hrest
      | well hbody => exact .well (hbody.cons hhyphen)

lemma takeWhile_ne_of_not_mem (h : c ∉ cs) : cs.takeWhile (· ≠ c) = cs := by
  rw [List.takeWhile_eq_self_iff]
  intro d hd
  have hne : d ≠ c := fun heq => h (heq ▸ hd)
  simpa using hne

/-- A prolog is read up to the first question mark. -/
lemma ends_prologEnd (cs : List Char) : Ends ('?' ∉ ·) ['?'] cs (Lexeme.prologEnd cs) := by
  by_cases hmark : '?' ∈ cs
  · obtain ⟨body, rest, rfl, hbody⟩ := List.eq_append_cons_of_mem hmark
    simp only [Lexeme.prologEnd, takeWhile_ne_append hbody, List.drop_left]
    split
    · next tail heq =>
      obtain rfl := (List.cons.inj heq).2
      exact .well hbody
    · next hnot heq =>
      obtain rfl := (List.cons.inj heq).2
      refine .badly hbody fun hhead => ?_
      obtain ⟨tail, rfl⟩ := List.head?_eq_some_iff.mp hhead
      exact hnot tail rfl
    · next hnot => exact (hnot rest rfl).elim
  · simp only [Lexeme.prologEnd, takeWhile_ne_of_not_mem hmark, List.drop_length]
    refine .never fun hpart => hmark (hpart.subset (by simp))

/-! ### Every lexeme is what its role says -/

/-- The character together with so many of those after it is what the role says. -/
def Measured (c : Char) (cs : List Char) (found : Role × Nat) : Prop :=
  found.1.Fits (c :: cs.take found.2) (cs.drop found.2)

variable {role : Role} {found : Bool × Nat}

lemma measured_append (h : role.Fits (c :: w) rest) : Measured c (w ++ rest) (role, w.length) := by
  simpa [Measured] using h

lemma measured_all (h : role.Fits (c :: cs) []) : Measured c cs (role, cs.length) := by
  simpa [Measured] using h

lemma measured_one (h : role.Fits [c] cs) : Measured c cs (role, 0) := h

lemma measured_comment (h : Ends CommentBody ['-', '-'] cs found) :
    Measured '<' ('!' :: '-' :: '-' :: cs) (Lexeme.layoutIf found.1, found.2 + 3) := by
  cases h with
  | never h => exact measured_all (.openComment h)
  | @badly body rest hbody hrest =>
    have hfits : Role.Fits ('<' :: (['!', '-', '-'] ++ body ++ ['-', '-'])) rest .dropped :=
      .badComment hbody hrest
    simpa [Lexeme.layoutIf] using measured_append hfits
  | @well body rest hbody =>
    have hfits : Role.Fits ('<' :: (['!', '-', '-'] ++ body ++ ['-', '-', '>'])) rest .layout := by
      simpa [Role.Fits] using Gap.comment hbody .nil
    simpa [Lexeme.layoutIf] using measured_append hfits

lemma measured_prolog (h : Ends ('?' ∉ ·) ['?'] cs found) :
    Measured '<' ('?' :: cs) (Lexeme.layoutIf found.1, found.2 + 1) := by
  cases h with
  | never h => exact measured_all (.openProlog (by simpa [List.singleton_infix_iff] using h))
  | @badly body rest hbody hrest =>
    have hfits : Role.Fits ('<' :: (['?'] ++ body ++ ['?'])) rest .dropped :=
      .badProlog hbody hrest
    simpa [Lexeme.layoutIf] using measured_append hfits
  | @well body rest hbody =>
    have hfits : Role.Fits ('<' :: (['?'] ++ body ++ ['?', '>'])) rest .layout := by
      simpa [Role.Fits] using Gap.prolog hbody .nil
    simpa [Lexeme.layoutIf] using measured_append hfits

lemma measured_less (cs : List Char) : Measured '<' cs (Lexeme.afterLess cs) := by
  unfold Lexeme.afterLess
  split
  · exact measured_prolog (ends_prologEnd _)
  · exact measured_comment (ends_commentEnd _)
  · exact measured_append (w := ['/']) .closeTagOpen
  · exact measured_one .tagOpen

lemma measured_quote {q : Char} (hq : q = '"' ∨ q = '\'') (cs : List Char) :
    Measured q cs (Lexeme.afterQuote q cs) := by
  by_cases hmem : q ∈ cs
  · obtain ⟨raw, rest, rfl, hraw⟩ := List.eq_append_cons_of_mem hmem
    have hfits : Role.Fits (q :: (raw ++ [q])) rest
        (.token (.string (String.ofList (Entity.decode raw)))) := .string hq hraw
    have hquote := measured_append hfits
    rwa [← afterQuote_raw hraw, List.append_assoc, List.singleton_append] at hquote
  · simp only [Lexeme.afterQuote, takeWhile_ne_of_not_mem hmem, lt_irrefl, if_false]
    exact measured_all (.quote hq hmem)

lemma gap_of_isLayout (h : ∀ c ∈ w, isLayout c = true) : Gap w := by
  induction w with
  | nil => exact .nil
  | cons c w ih =>
    rw [List.forall_mem_cons] at h
    exact .space (isLayout_iff.mp h.1) (ih h.2)

lemma measured_takeWhile {p : Char → Bool} (h : ∀ rest, role.Fits (c :: cs.takeWhile p) rest) :
    Measured c cs (role, (cs.takeWhile p).length) := by
  have hsplit := measured_append (h (cs.dropWhile p))
  rwa [List.takeWhile_append_dropWhile] at hsplit

/-- **Every lexeme is what its role says.** -/
lemma measured_measure (c : Char) (cs : List Char) : Measured c cs (Lexeme.measure c cs) := by
  unfold Lexeme.measure
  split
  · next hc =>
    refine measured_takeWhile fun rest => gap_of_isLayout ?_
    exact List.forall_mem_cons.mpr ⟨hc, fun d hd => List.mem_takeWhile_imp hd⟩
  · next hlayout =>
    split
    · next hc =>
      refine measured_takeWhile fun rest => .name (isNameStart_iff.mp hc) fun d hd => ?_
      exact isNameChar_iff.mp (List.mem_takeWhile_imp hd)
    · next hname =>
      split
      · exact measured_less cs
      · exact measured_one .tagClose
      · exact measured_one .equals
      · split
        · exact measured_append (w := ['>']) .selfClose
        · next hnot =>
          refine measured_one (.slash fun hhead => ?_)
          obtain ⟨tail, rfl⟩ := List.head?_eq_some_iff.mp hhead
          exact hnot tail rfl
      · exact measured_quote (.inl rfl) cs
      · exact measured_quote (.inr rfl) cs
      · refine measured_one (.stray (mt isNameStart_iff.mpr hname) ?_)
        rw [isLayout_iff] at hlayout
        simp_all

lemma cut_lexemes (cs : List Char) : Cut (lexemes cs) cs := by
  fun_induction lexemes cs with
  | case1 => exact .nil
  | case2 c cs role n hmeasure ih =>
    have hfits := measured_measure c cs
    rw [hmeasure] at hfits
    simpa using Cut.cons hfits ih

/-! ### Clean texts -/

lemma Clean.gap {gap : List Char} (h : Clean cs) (hgap : Gap gap) : Clean (gap ++ cs) := by
  induction hgap with
  | nil => exact h
  | space hc _ ih => exact .space hc ih
  | comment hbody _ ih => simpa using Clean.comment hbody ih
  | prolog hbody _ ih => simpa using Clean.prolog hbody ih

/-- A text of which nothing is dropped is clean. -/
lemma Cut.clean {ls : List Lexeme} (h : Cut ls cs) (hls : ∀ l ∈ ls, l.role ≠ .dropped) :
    Clean cs := by
  induction h with
  | nil => exact .nil
  | @cons role text rest ls hrole _ ih =>
    obtain ⟨hfirst, hmore⟩ := List.forall_mem_cons.mp hls
    cases role with
    | token t => exact .token hrole (ih hmore)
    | layout => exact (ih hmore).gap hrole
    | dropped => exact absurd rfl hfirst

/-- A clean text is still clean without the characters of a class that it starts with, if every
word consists of such characters or starts with another one. -/
lemma Clean.dropWhile {p : Char → Bool} (hless : p '<' = false)
    (hword : ∀ t word, Token.Word t word →
      (∀ d ∈ word, p d = true) ∨ ∀ d ∈ word.head?, p d = false) (h : Clean cs) :
    Clean (cs.dropWhile p) := by
  induction h with
  | nil => exact .nil
  | @token t word cs hw h ih =>
    obtain hall | hhead := hword t word hw
    · rwa [List.dropWhile_append_of_pos hall]
    · cases word with
      | nil => exact ih
      | cons d word =>
        have hstop : (d :: word ++ cs).dropWhile p = d :: word ++ cs := by simp [hhead d rfl]
        rw [hstop]
        exact .token hw h
  | @space d cs hd h ih =>
    rw [List.dropWhile_cons]
    split
    · exact ih
    · exact .space hd h
  | comment hbody h => simpa [hless] using Clean.comment hbody h
  | prolog hbody h => simpa [hless] using Clean.prolog hbody h

lemma Clean.dropWhile_isLayout (h : Clean cs) : Clean (cs.dropWhile isLayout) := by
  refine h.dropWhile rfl fun t word hword => .inr ?_
  cases hword with
  | name hc => simpa using isLayout_eq_false_of_nameStart hc
  | string hq => rcases hq with rfl | rfl <;> simp [isLayout]
  | _ => simp [isLayout]

lemma Clean.dropWhile_isNameChar (h : Clean cs) : Clean (cs.dropWhile isNameChar) := by
  refine h.dropWhile rfl fun t word hword => ?_
  cases hword with
  | name hc hcs =>
    exact .inl (List.forall_mem_cons.mpr
      ⟨isNameChar_iff.mpr (.inl hc), fun d hd => isNameChar_iff.mpr (hcs d hd)⟩)
  | string hq => rcases hq with rfl | rfl <;> simp [isNameChar]
  | _ => simp [isNameChar]

/-- A slash in front can only be that of `/>`. -/
lemma Clean.of_slash (h : Clean ('/' :: cs)) : Clean cs := by
  generalize htext : '/' :: cs = text at h
  cases h with
  | @token t word rest hword h =>
    cases hword with
    | selfClose =>
      obtain rfl := (List.cons.inj htext).2
      exact .token .tagClose h
    | name hc =>
      obtain rfl := (List.cons.inj htext).1
      simp [NameStart] at hc
    | string hq => rcases hq with rfl | rfl <;> simp at htext
    | _ => simp at htext
  | space hc =>
    obtain rfl := (List.cons.inj htext).1
    simp at hc
  | _ => simp at htext

/-- The characters that can stand in front of a clean text. -/
lemma Clean.start (h : Clean (c :: cs)) :
    NameStart c ∨ c ∈ [' ', '\t', '\r', '\n', '<', '>', '=', '/', '"', '\''] := by
  generalize htext : c :: cs = text at h
  cases h with
  | nil => simp at htext
  | @token t word rest hword h =>
    cases hword with
    | name hc => exact .inl ((List.cons.inj htext).1 ▸ hc)
    | string hq =>
      obtain rfl := (List.cons.inj htext).1
      rcases hq with rfl | rfl <;> simp
    | _ =>
      obtain rfl := (List.cons.inj htext).1
      simp
  | space hc =>
    obtain rfl := (List.cons.inj htext).1
    exact .inr (List.mem_append_left _ hc)
  | _ =>
    obtain rfl := (List.cons.inj htext).1
    simp

/-- The character together with so many of those after it is not dropped, and the rest is clean. -/
def Kept (cs : List Char) (found : Role × Nat) : Prop :=
  found.1 ≠ .dropped ∧ Clean (cs.drop found.2)

lemma kept_append (hrole : role ≠ .dropped) (h : Clean rest) :
    Kept (w ++ rest) (role, w.length) :=
  ⟨hrole, by simpa using h⟩

lemma kept_takeWhile {p : Char → Bool} (hrole : role ≠ .dropped) (h : Clean (cs.dropWhile p)) :
    Kept cs (role, (cs.takeWhile p).length) := by
  have hsplit := kept_append (w := cs.takeWhile p) hrole h
  rwa [List.takeWhile_append_dropWhile] at hsplit

lemma Clean.kept_less (h : Clean cs) : Kept cs (Lexeme.afterLess cs) := by
  unfold Lexeme.afterLess
  split
  · simpa [NameStart] using h.start
  · simpa [NameStart] using h.start
  · exact ⟨by simp, h.of_slash⟩
  · exact ⟨by simp, h⟩

/-- **Nothing is dropped of a clean text**, whichever way it has been put together. -/
lemma Clean.kept (h : Clean (c :: cs)) : Kept cs (Lexeme.measure c cs) := by
  generalize htext : c :: cs = text at h
  cases h with
  | nil => simp at htext
  | @token t word rest hword h =>
    cases hword with
    | tagOpen =>
      obtain ⟨rfl, rfl⟩ := List.cons.inj htext
      exact h.kept_less
    | @name d w hc hcs =>
      -- the word may be the beginning of a longer name
      rw [List.cons_append] at htext
      obtain ⟨rfl, rfl⟩ := List.cons.inj htext
      have hname : ∀ d ∈ w, isNameChar d = true := fun d hd => isNameChar_iff.mpr (hcs d hd)
      have hrest : Clean ((w ++ rest).dropWhile isNameChar) := by
        rw [List.dropWhile_append_of_pos hname]
        exact h.dropWhile_isNameChar
      simp only [Lexeme.measure, isLayout_eq_false_of_nameStart hc, isNameStart_iff.mpr hc]
      exact kept_takeWhile (by simp) hrest
    | @string q raw hq hraw =>
      rw [List.cons_append] at htext
      obtain ⟨rfl, rfl⟩ := List.cons.inj htext
      have hmeasure : Lexeme.measure c (raw ++ [c] ++ rest) =
          Lexeme.afterQuote c (raw ++ [c] ++ rest) := by
        rcases hq with rfl | rfl <;> rfl
      rw [hmeasure, afterQuote_raw hraw]
      exact kept_append (by simp) h
    | _ =>
      obtain ⟨rfl, rfl⟩ := List.cons.inj htext
      exact ⟨by rintro ⟨⟩, h⟩
  | space hc h =>
    obtain ⟨rfl, rfl⟩ := List.cons.inj htext
    simp only [Lexeme.measure, isLayout_iff.mpr hc]
    exact kept_takeWhile (by simp) h.dropWhile_isLayout
  | @comment body rest hbody h =>
    obtain ⟨rfl, rfl⟩ := List.cons.inj htext
    exact measure_comment hbody rest ▸ kept_append (by simp) h
  | @prolog body rest hbody h =>
    obtain ⟨rfl, rfl⟩ := List.cons.inj htext
    exact measure_prolog hbody rest ▸ kept_append (by simp) h

/-- A text is clean if and only if nothing of it is dropped. -/
lemma clean_iff : Clean cs ↔ ∀ l ∈ lexemes cs, l.role ≠ .dropped := by
  refine ⟨fun h => ?_, (cut_lexemes cs).clean⟩
  fun_induction lexemes cs with
  | case1 => simp
  | case2 c cs role n hmeasure ih =>
    have hkept := h.kept
    rw [hmeasure] at hkept
    exact List.forall_mem_cons.mpr ⟨hkept.1, ih hkept.2⟩

/-! ### Accepted texts -/

namespace Document

lemma exists_parse_iff {source : String} :
    (∃ d, parse source = .ok d) ↔ ∃ t, Writes [t] (values (tokens source)) := by
  constructor
  · rintro ⟨d, hd⟩
    exact ⟨_, (ofTokens_eq_ok_iff.mp hd).writes⟩
  · rintro ⟨t, ht⟩
    obtain ⟨root, hroot, -⟩ := ht.exists_root rfl
    exact ⟨⟨root⟩, ofTokens_eq_ok_iff.mpr hroot⟩

/-- **What an accepted text consists of.** The lexemes of a text are tokens, layout, and what is
dropped. The tokens alone decide whether the text is accepted, and it is nothing but tokens, white
space, comments and prologs exactly if nothing of it is dropped. -/
theorem parse_ok_clean_iff (source : String) :
    Cut (lexemes source.toList) source.toList ∧
      ((∃ d, parse source = .ok d) ↔ ∃ t, Writes [t] (values (tokens source))) ∧
      (Clean source.toList ↔ ∀ l ∈ lexemes source.toList, l.role ≠ .dropped) :=
  ⟨cut_lexemes source.toList, exists_parse_iff, clean_iff⟩

/-- A digit between two tags is dropped, and the text is accepted. -/
theorem parse_ok_of_not_clean :
    (∃ d, parse "<a>1</a>" = .ok d) ∧ ¬ Clean "<a>1</a>".toList := by
  have hparse : (parse "<a>1</a>").isOk := by decide +kernel
  have hdropped : ¬ ∀ l ∈ lexemes "<a>1</a>".toList, l.role ≠ .dropped := by decide +kernel
  exact ⟨isOk_iff.mp hparse, mt clean_iff.mp hdropped⟩

end Document

end Stencil.Markup

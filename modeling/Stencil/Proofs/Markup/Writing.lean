import Stencil.Proofs.Markup.Entities
import Stencil.Proofs.Markup.Grammar

/-!
Writing out tokens.

A list of tokens can be written in many ways: with any white space, comments and prologs around the
tokens, with values in either quotes, and with entities for special characters.
-/

namespace Stencil.Markup

/-! ### Words -/

/-- The characters that a name can start with. -/
def NameStart (c : Char) : Prop := 'a' ≤ c ∧ c ≤ 'z' ∨ 'A' ≤ c ∧ c ≤ 'Z' ∨ c = '_'

/-- The characters that a name can go on with. -/
def NameRest (c : Char) : Prop := NameStart c ∨ '0' ≤ c ∧ c ≤ '9' ∨ c ∈ ['.', ':', '-']

/-- The body of a comment has no two hyphens in a row, and no hyphen at its end. -/
structure CommentBody (body : List Char) : Prop where
  single : ¬ ['-', '-'] <:+: body
  last : body.getLast? ≠ some '-'

/-- What may stand around tokens: white space, comments and prologs. -/
inductive Gap : List Char → Prop
  | nil : Gap []
  | space {c : Char} {cs : List Char} (hc : c ∈ [' ', '\t', '\r', '\n']) (h : Gap cs) :
    Gap (c :: cs)
  | comment {body cs : List Char} (hbody : CommentBody body) (h : Gap cs) :
    Gap (['<', '!', '-', '-'] ++ body ++ ['-', '-', '>'] ++ cs)
  | prolog {body cs : List Char} (hbody : '?' ∉ body) (h : Gap cs) :
    Gap (['<', '?'] ++ body ++ ['?', '>'] ++ cs)

/-- The word is a way of writing the token. -/
inductive Token.Written : Token → List Char → Prop
  | tagOpen : Written .tagOpen ['<']
  | closeTagOpen : Written .closeTagOpen ['<', '/']
  | tagClose : Written .tagClose ['>']
  | selfClose : Written .selfClose ['/', '>']
  | equals : Written .equals ['=']
  | name {c : Char} {cs : List Char} (hc : NameStart c) (hcs : ∀ d ∈ cs, NameRest d) :
    Written (.name (String.ofList (c :: cs))) (c :: cs)
  /-- Between quotes, the ampersand and the quote itself are written as entities. -/
  | string {q : Char} {value text : List Char} (hq : q = '"' ∨ q = '\'')
    (h : Entity.Spells ['&', q] text value) :
    Written (.string (String.ofList value)) (q :: (text ++ [q]))

/-- The tokens that would be read differently if they touched. -/
def Token.Clash : Token → Token → Prop
  | .name _, .name _ => True
  | .tagOpen, .selfClose => True
  | _, _ => False

/-- The text, which starts at the byte `start`, consists of the tokens written out at their places,
with gaps after them. -/
inductive Printed : Nat → List (Located Token) → List Char → Prop
  | nil {start : Nat} : Printed start [] []
  | cons {start : Nat} {t : Token} {us : List (Located Token)} {word gap text : List Char}
    (hword : t.Written word) (hgap : Gap gap)
    (hclash : gap = [] → ∀ u ∈ us.head?, ¬ t.Clash u.value)
    (h : Printed (start + byteSize word + byteSize gap) us text) :
    Printed start (⟨t, ⟨start, start + byteSize word⟩⟩ :: us) (word ++ gap ++ text)

/-! ### Whatever can be written -/

/-- The name of the token, if it has one, is a proper name. -/
def Token.Proper : Token → Prop
  | .name text => ∃ c cs, text = String.ofList (c :: cs) ∧ NameStart c ∧ ∀ d ∈ cs, NameRest d
  | _ => True

lemma Token.Proper.exists_written {t : Token} (h : t.Proper) : ∃ word, t.Written word := by
  cases t with
  | name text =>
    obtain ⟨c, cs, rfl, hc, hcs⟩ := h
    exact ⟨_, .name hc hcs⟩
  | string value =>
    have hmasked : ∀ c ∈ ['&', '"'], (Entity.reference c).isSome := by simp [Entity.reference]
    obtain ⟨text, htext⟩ := Entity.exists_spells hmasked value.toList
    have hword := Token.Written.string (.inl rfl) htext
    rw [String.ofList_toList] at hword
    exact ⟨_, hword⟩
  | tagOpen => exact ⟨_, .tagOpen⟩
  | closeTagOpen => exact ⟨_, .closeTagOpen⟩
  | tagClose => exact ⟨_, .tagClose⟩
  | selfClose => exact ⟨_, .selfClose⟩
  | equals => exact ⟨_, .equals⟩

/-- Every list of tokens with proper names can be written out. -/
lemma exists_printed {ts : List Token} (h : ∀ t ∈ ts, t.Proper) (start : Nat) :
    ∃ us text, values us = ts ∧ Printed start us text := by
  induction ts generalizing start with
  | nil => exact ⟨[], [], rfl, .nil⟩
  | cons t ts ih =>
    rw [List.forall_mem_cons] at h
    obtain ⟨word, hword⟩ := h.1.exists_written
    obtain ⟨us, text, rfl, htext⟩ := ih h.2 (start + byteSize word + byteSize [' '])
    exact ⟨_, _, rfl, .cons hword (.space (by simp) .nil) (by simp) htext⟩

end Stencil.Markup

import Mathlib.Data.String.Basic
import Stencil.Proofs.Markup.ElementPlaces

/-!
Cutting tokens out of a text.

The place of a token is a stretch of whole characters, and these are the token: what is cut out
there is read as the same token, and as nothing else. It makes no difference what the lexer has
dropped before.
-/

namespace Stencil

/-- What stands in the text at the place. -/
def Span.slice (place : Span) (source : String) : String :=
  String.Pos.Raw.extract source ⟨place.start⟩ ⟨place.stop⟩

lemma byteSize_eq_utf8Len (cs : List Char) : byteSize cs = String.utf8Len cs := by
  induction cs with
  | nil => rfl
  | cons c cs ih => rw [byteSize_cons, String.utf8Len_cons, ih, Nat.add_comm]

lemma byteSize_toList (s : String) : byteSize s.toList = s.utf8ByteSize := by
  rw [byteSize_eq_utf8Len, ← String.utf8ByteSize_ofList, String.ofList_toList]

lemma isValid_of_append {source : String} {before after : List Char}
    (h : source.toList = before ++ after) : String.Pos.Raw.IsValid source ⟨byteSize before⟩ := by
  have hsplit : source = String.ofList before ++ String.ofList after := by
    rw [← String.ofList_append, ← h, String.ofList_toList]
  refine String.Pos.Raw.isValid_iff_exists_append.mpr ⟨_, _, hsplit, ?_⟩
  rw [String.rawEndPos_ofList, byteSize_eq_utf8Len]

namespace Markup

namespace Occupies

variable {source : String} {place : Span} {text : List Char}

/-- Where a text ends a character starts, or the source ends too. -/
lemma isValid (h : Occupies source place text) :
    String.Pos.Raw.IsValid source ⟨place.start⟩ ∧ String.Pos.Raw.IsValid source ⟨place.stop⟩ := by
  obtain ⟨before, after, hsource, rfl⟩ := h
  have hstop := isValid_of_append hsource
  rw [byteSize_append] at hstop
  rw [List.append_assoc] at hsource
  exact ⟨isValid_of_append hsource, hstop⟩

lemma slice_eq (h : Occupies source place text) : place.slice source = String.ofList text := by
  obtain ⟨before, after, hsource, rfl⟩ := h
  have hparts : source = String.ofList (before ++ text ++ after) := by
    rw [← hsource, String.ofList_toList]
  rw [Span.slice, hparts, byteSize_eq_utf8Len, byteSize_eq_utf8Len]
  exact String.extract_of_valid before text after

end Occupies

/-- The word of a string is a raw text between two quotes. -/
lemma Token.Word.exists_raw {value : String} {word : List Char}
    (h : (Token.string value).Word word) : ∃ q raw, (q = '"' ∨ q = '\'') ∧ q ∉ raw ∧
      word = q :: (raw ++ [q]) ∧ value = String.ofList (Entity.decode raw) := by
  cases h with
  | string hq hraw => exact ⟨_, _, hq, hraw, rfl, rfl⟩

/-- What is read as one token is read as this token from its first byte to its last. -/
lemma tokens_of_lexemes_eq {t : Token} {word : List Char} (h : lexemes word = [⟨.token t, word⟩]) :
    tokens (String.ofList word) = [⟨t, ⟨0, byteSize word⟩⟩] := by
  rw [tokens_ofList, tokensFrom, h]
  simp [placeTokens]

/-- **Tokens are where they are said to be**, whatever has been dropped: they lie in the text one
after the other, each takes up whole characters, and what is cut out there is, on its own, read as
this token and nothing else. A name is cut out as it is, and a string as a raw text between two
quotes, which it has none of, and which is decoded to the value. -/
theorem tokens_exact (source : String) :
    InOrder 0 source.utf8ByteSize ((tokens source).map (·.span)) ∧
    ∀ t ∈ tokens source,
      String.Pos.Raw.IsValid source ⟨t.span.start⟩ ∧
      String.Pos.Raw.IsValid source ⟨t.span.stop⟩ ∧
      tokens (t.span.slice source) = [⟨t.value, ⟨0, (t.span.slice source).utf8ByteSize⟩⟩] ∧
      (∀ name, t.value = .name name → t.span.slice source = name) ∧
      ∀ value, t.value = .string value → ∃ q raw, (q = '"' ∨ q = '\'') ∧ q ∉ raw ∧
        t.span.slice source = String.ofList (q :: (raw ++ [q])) ∧
        value = String.ofList (Entity.decode raw) := by
  have hlaid := laid_tokens source
  rw [byteSize_toList] at hlaid
  refine ⟨hlaid.inOrder, fun t ht => ?_⟩
  obtain ⟨word, hword, hplace, hself⟩ := exists_word ht
  have hslice := hplace.slice_eq
  refine ⟨hplace.isValid.1, hplace.isValid.2, ?_, fun name hname => ?_, fun value hvalue => ?_⟩
  · rw [hslice, tokens_of_lexemes_eq hself, ← byteSize_toList, String.toList_ofList]
  · rw [hname] at hword
    rw [hslice, hword.eq_toList, String.ofList_toList]
  · rw [hvalue] at hword
    obtain ⟨q, raw, hq, hraw, rfl, hdecode⟩ := hword.exists_raw
    exact ⟨q, raw, hq, hraw, hslice, hdecode⟩

/-- A comment, a prolog and a quote that do not end as they should, and other characters that belong
to nothing. -/
def brokenSource : String := "é<!--a--b<?p?<k v='ü&lt;'/>1<l \"x"

/-- The string of the broken source is `'ü&lt;'`, eight bytes from the byte 19 on. -/
theorem tokens_brokenSource_exact :
    ⟨.string "ü<", ⟨19, 27⟩⟩ ∈ tokens brokenSource ∧
    InOrder 0 35 ((tokens brokenSource).map (·.span)) ∧
    Span.slice ⟨19, 27⟩ brokenSource = "'ü&lt;'" ∧
    tokens "'ü&lt;'" = [⟨.string "ü<", ⟨0, 8⟩⟩] := by
  obtain ⟨horder, hslices⟩ := tokens_exact brokenSource
  have hmem : ⟨.string "ü<", ⟨19, 27⟩⟩ ∈ tokens brokenSource := by decide +kernel
  have hslice : Span.slice ⟨19, 27⟩ brokenSource = "'ü&lt;'" := by decide +kernel
  obtain ⟨-, -, hself, -⟩ := hslices _ hmem
  rw [hslice] at hself
  exact ⟨hmem, horder, hslice, hself⟩

end Markup

end Stencil

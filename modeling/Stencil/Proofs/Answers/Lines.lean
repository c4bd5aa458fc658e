import Mathlib.Data.List.Basic
import Stencil.Answers.Dialogue

/-!
The lines of a text.

An input is cut into lines as bytes, and each line is decoded on its own. Where the input is a text in
UTF-8 the lines are the same as those of its characters, since the byte of a line feed is part of no
other character.
-/

namespace Stencil.Dialogue

variable {c : Char} {cs : List Char} {bs current : List UInt8} {b : UInt8}

/-! ### Lines of characters -/

/-- The stretches of characters up to and including each line feed; the last one may be without. -/
def stretches : List Char → List (List Char)
  | [] => []
  | c :: cs =>
    if c = '\n' then [c] :: stretches cs
    else
      match stretches cs with
      | [] => [[c]]
      | s :: ss => (c :: s) :: ss

/-- A stretch without the line breaks at its end. -/
def trimmed (cs : List Char) : String := String.ofList (cs.reverse.dropWhile isBreak).reverse

/-- The lines of a text. -/
def textLines (text : String) : List String := (stretches text.toList).map trimmed

/-! ### Lines of bytes -/

/-- The bytes of characters. -/
def utf8 (cs : List Char) : List UInt8 := cs.flatMap String.utf8EncodeChar

/-- The loop over the bytes has the first `i` of them, from the last, when it comes to number `i`. -/
lemma toList_loop_take (bytes : ByteArray) {left i : Nat} (h : i + left = bytes.size) :
    ByteArray.toList.loop bytes i (bytes.data.toList.take i).reverse = bytes.data.toList := by
  have hlength : bytes.data.toList.length = bytes.size := Array.length_toList
  induction left generalizing i with
  | zero =>
    have hall : bytes.data.toList.take i = bytes.data.toList := List.take_of_length_le (by omega)
    rw [ByteArray.toList.loop, if_neg (by omega), List.reverse_reverse, hall]
  | succ left ih =>
    have hi : i < bytes.size := by omega
    have hget : bytes.get! i = bytes.data.toList[i] := by simp [ByteArray.get!, hi]
    have htake : bytes.get! i :: (bytes.data.toList.take i).reverse =
        (bytes.data.toList.take (i + 1)).reverse := by
      rw [List.take_add_one, List.getElem?_eq_getElem (by omega), hget]
      simp
    rw [ByteArray.toList.loop, if_pos hi, htake]
    exact ih (by omega)

lemma toList_toUTF8 (text : String) : text.toUTF8.toList = utf8 text.toList := by
  calc text.toUTF8.toList
      = text.toUTF8.data.toList := toList_loop_take text.toUTF8 (Nat.zero_add _)
    _ = text.toList.utf8Encode.data.toList := by
      rw [String.toUTF8_eq_toByteArray, String.utf8Encode_toList]
    _ = utf8 text.toList := List.toList_data_toByteArray

/-- Only the line feed has the byte of a line feed. -/
lemma not_mem_utf8EncodeChar (hc : c ≠ '\n') : 10 ∉ String.utf8EncodeChar c := by
  have hval : c.val.toNat ≠ 10 := fun h => hc (Char.toNat_inj.mp h)
  have hnat (n : Nat) : (10 : UInt8) = UInt8.ofNat n ↔ n % 256 = 10 := by
    rw [← UInt8.toNat_inj, UInt8.toNat_ofNat', eq_comm]
    rfl
  rw [String.utf8EncodeChar]
  -- The bytes of a character that takes more than one are at least 128.
  split_ifs <;> simp only [List.mem_cons, List.not_mem_nil, or_false, hnat, not_or] <;> omega

lemma rawLines_append (h : 10 ∉ bs) (current rest : List UInt8) :
    rawLines current (bs ++ rest) = rawLines (bs.reverse ++ current) rest := by
  induction bs generalizing current with
  | nil => rfl
  | cons b bs ih =>
    obtain ⟨hb, hbs⟩ := not_or.mp (mt List.mem_cons.mpr h)
    rw [List.cons_append, rawLines, if_neg (Ne.symm hb), ih hbs, List.reverse_cons,
      List.append_assoc, List.singleton_append]

/-- The bytes of a text are cut where its characters are. -/
lemma rawLines_utf8 (cs : List Char) (current : List UInt8) : rawLines current (utf8 cs) =
    match (stretches cs).map utf8 with
    | [] => if current.isEmpty then [] else [current.reverse]
    | s :: ss => (current.reverse ++ s) :: ss := by
  induction cs generalizing current with
  | nil => rfl
  | cons c cs ih =>
    have hcons : utf8 (c :: cs) = String.utf8EncodeChar c ++ utf8 cs := List.flatMap_cons
    rw [hcons, stretches]
    by_cases hc : c = '\n'
    · subst hc
      have hfeed : String.utf8EncodeChar '\n' = [10] := by decide
      rw [if_pos rfl, hfeed, List.singleton_append, rawLines, if_pos rfl, ih]
      cases h : (stretches cs).map utf8 with
      | nil => simp [h, utf8, hfeed]
      | cons s ss => simp [h, utf8, hfeed]
    · rw [if_neg hc, rawLines_append (not_mem_utf8EncodeChar hc), ih]
      cases stretches cs with
      | nil => simp [utf8, String.utf8EncodeChar_ne_nil]
      | cons s ss => simp [utf8]

lemma ofBytes_utf8 (cs : List Char) : Line.ofBytes (utf8 cs) = some (trimmed cs) := by
  have hbytes : (⟨(utf8 cs).toArray⟩ : ByteArray) = (String.ofList cs).toByteArray := by
    rw [String.toByteArray_ofList, List.utf8Encode]
    exact ByteArray.ext (by simp [utf8])
  have hread : String.fromUTF8? ⟨(utf8 cs).toArray⟩ = some (String.ofList cs) := by
    rw [hbytes, String.fromUTF8?, dif_pos (String.ofList cs).isValidUTF8]
    rfl
  rw [Line.ofBytes, hread, Option.map_some, String.toList_ofList]
  rfl

/-- **The lines of an input in UTF-8** are the lines of its text, and all of them can be read. -/
theorem linesOf_toUTF8 (text : String) : linesOf text.toUTF8 = (textLines text).map some := by
  have hraw : rawLines [] (utf8 text.toList) = (stretches text.toList).map utf8 := by
    rw [rawLines_utf8]
    cases (stretches text.toList).map utf8 <;> rfl
  rw [linesOf, toList_toUTF8, hraw, List.map_map, textLines, List.map_map]
  exact List.map_congr_left fun s _ => ofBytes_utf8 s

example : textLines "one\r\n\ntwo" = ["one", "", "two"] := by decide

end Stencil.Dialogue

import Stencil.Toml.Scan

/-!
Quoted strings.

Strings in double quotes know escapes, those in single quotes do not. Strings between three quotes
may run over several lines; one or two quotes may stand in them, also at their end.
-/

namespace Stencil.Toml.Quoted

/-- The character with the code that the hexadecimal digits form. -/
def hexChar (ds : List Char) : Option Char :=
  let n := ofDigits 16 ds
  if ds.all (isDigitOf 16) && (n < 0xD800 || (0xE000 ≤ n && n < 0x110000)) then
    some (Char.ofNat n)
  else none

/-- The character that an escape stands for, and how many characters after the backslash it takes. -/
def escape : List Char → Option (Char × Nat)
  | 'b' :: _ => some ('\x08', 1)
  | 't' :: _ => some ('\t', 1)
  | 'n' :: _ => some ('\n', 1)
  | 'f' :: _ => some ('\x0c', 1)
  | 'r' :: _ => some ('\r', 1)
  | '"' :: _ => some ('"', 1)
  | '\\' :: _ => some ('\\', 1)
  | 'u' :: cs => if 4 ≤ cs.length then (hexChar (cs.take 4)).map (·, 5) else none
  | 'U' :: cs => if 8 ≤ cs.length then (hexChar (cs.take 8)).map (·, 9) else none
  | _ => none

/-- How many characters a backslash at the end of a line skips: the rest of the line, which must be
blank, and all blanks and line breaks after it. -/
def continuation? (cs : List Char) : Option Nat :=
  let rest := skipBlanks cs
  match newline? rest with
  | some _ => some (cs.length - rest.length + blankLength rest)
  | none => none

def consTo (c : Char) : Option (List Char × List Char) → Option (List Char × List Char)
  | some (text, rest) => some (c :: text, rest)
  | none => none

/-- The rest of a string on one line, up to the quote `q`. -/
def singleLine (q : Char) (escapes : Bool) : List Char → Option (List Char × List Char)
  | [] => none
  | c :: cs =>
    if c = q then some ([], cs)
    else if c = '\\' ∧ escapes then
      match escape cs with
      | some (d, n) => consTo d (singleLine q escapes (cs.drop n))
      | none => none
    else if isTextChar c then consTo c (singleLine q escapes cs)
    else none
termination_by cs => cs.length
decreasing_by all_goals (simp only [List.length_drop, List.length_cons]; omega)

/-- The rest of a string over several lines, up to three quotes `q`. -/
def multiLine (q : Char) (escapes : Bool) : List Char → Option (List Char × List Char)
  | [] => none
  | c :: cs =>
    if c = q then
      let n := (cs.takeWhile (· = q)).length
      if 2 ≤ n then
        let extra := min (n - 2) 2
        some (List.replicate extra q, cs.drop (extra + 2))
      else consTo c (multiLine q escapes cs)
    else if c = '\n' then consTo '\n' (multiLine q escapes cs)
    else if c = '\r' then
      match cs with
      | '\n' :: rest => consTo '\n' (multiLine q escapes rest)
      | _ => none
    else if c = '\\' ∧ escapes then
      match continuation? cs with
      | some n => multiLine q escapes (cs.drop n)
      | none =>
        match escape cs with
        | some (d, n) => consTo d (multiLine q escapes (cs.drop n))
        | none => none
    else if isTextChar c then consTo c (multiLine q escapes cs)
    else none
termination_by cs => cs.length
decreasing_by all_goals (simp only [List.length_drop, List.length_cons]; omega)

/-- A line break directly after three opening quotes does not count. -/
def opened (q : Char) (escapes : Bool) (cs : List Char) : Option (List Char × List Char) :=
  multiLine q escapes ((newline? cs).getD cs)

/-- A string of any of the four kinds. -/
def string : Reads String := fun cs =>
  let read := match cs with
    | '"' :: '"' :: '"' :: rest => opened '"' true rest
    | '"' :: rest => singleLine '"' true rest
    | '\'' :: '\'' :: '\'' :: rest => opened '\'' false rest
    | '\'' :: rest => singleLine '\'' false rest
    | _ => none
  read.map fun (text, rest) => (String.ofList text, rest)

end Stencil.Toml.Quoted

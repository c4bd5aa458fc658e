/-!
Characters of TOML documents, and how far stretches of them reach.
-/

namespace Stencil.Toml

/-- A reader takes something from the front of a text and gives the rest, or fails. -/
abbrev Reads (α : Type) := List Char → Option (α × List Char)

/-- Characters that may stand in strings and comments. -/
def isTextChar (c : Char) : Bool := c == '\t' || (0x20 ≤ c.toNat && c.toNat ≠ 0x7F)

def isBlank (c : Char) : Bool := c == ' ' || c == '\t'

def skipBlanks (cs : List Char) : List Char := cs.dropWhile isBlank

/-- What follows a line break, if the text starts with one. -/
def newline? : List Char → Option (List Char)
  | '\n' :: cs => some cs
  | '\r' :: '\n' :: cs => some cs
  | _ => none

/-- What follows a comment, if the text starts with one. -/
def comment? : List Char → Option (List Char)
  | '#' :: cs => some (cs.dropWhile isTextChar)
  | _ => none

/-- What follows the end of a line: blanks, possibly a comment, and a line break or the end. -/
def lineEnd? (cs : List Char) : Option (List Char) :=
  let cs := skipBlanks cs
  match (comment? cs).getD cs with
  | [] => some []
  | rest => newline? rest

/-- The number of characters of blanks and line breaks at the front. -/
def blankLength : List Char → Nat
  | [] => 0
  | '\r' :: '\n' :: cs => blankLength cs + 2
  | c :: cs => if isBlank c || c == '\n' then blankLength cs + 1 else 0

/-- Blanks, line breaks and comments; every comment must end in a line break. -/
def skipLayout : (fuel : Nat) → List Char → Option (List Char)
  | 0, _ => none
  | fuel + 1, cs =>
    let cs := cs.drop (blankLength cs)
    match comment? cs with
    | none => some cs
    | some rest => (newline? rest).bind (skipLayout fuel)

/-- The value of a decimal, octal, binary or hexadecimal digit. -/
def digitValue (c : Char) : Nat :=
  if c.isDigit then c.toNat - 48
  else if 'a' ≤ c ∧ c ≤ 'f' then c.toNat - 87
  else if 'A' ≤ c ∧ c ≤ 'F' then c.toNat - 55
  else 16

def isDigitOf (base : Nat) (c : Char) : Bool := digitValue c < base

/-- The number that digits of a base form. -/
def ofDigits (base : Nat) (ds : List Char) : Nat :=
  ds.foldl (fun n d => n * base + digitValue d) 0

end Stencil.Toml

import Stencil.Text.Width.Table

/-!
The number of terminal columns that a character takes.
-/

namespace Stencil.Text

namespace Width

def inRanges (ranges : List (Nat × Nat)) (code : Nat) : Bool :=
  ranges.any fun r => r.1 ≤ code && code ≤ r.2

/-- The columns of a character that is not a control character. -/
def ofCode (code : Nat) : Nat :=
  if code < 0x7F then 1
  else if code = 0x17D8 then 3
  else if code = 0x17A4 then 2
  else if inRanges emptyRanges code then 0
  else if inRanges wideRanges code then 2
  else 1

end Width

/-- The columns that `c` takes; a control character counts as one. -/
def columns (c : Char) : Nat :=
  if c.toNat < 0x20 ∨ 0x7F ≤ c.toNat ∧ c.toNat < 0xA0 then 1 else Width.ofCode c.toNat

/-- White space of any kind. -/
def isBlank (c : Char) : Bool :=
  (9 ≤ c.toNat && c.toNat ≤ 13) || c.toNat == 0x20 || c.toNat == 0x85 || c.toNat == 0xA0 ||
  c.toNat == 0x1680 || (0x2000 ≤ c.toNat && c.toNat ≤ 0x200A) || c.toNat == 0x2028 ||
  c.toNat == 0x2029 || c.toNat == 0x202F || c.toNat == 0x205F || c.toNat == 0x3000

end Stencil.Text

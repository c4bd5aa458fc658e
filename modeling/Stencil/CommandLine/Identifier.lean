import Stencil.Resolution.Session

/-!
Identifiers made from random bytes.
-/

namespace Stencil.CommandLine

def hexDigit (n : Nat) : Char := "0123456789abcdef".toList[n % 16]?.getD '0'

def hexByte (b : UInt8) : List Char := [hexDigit (b.toNat / 16), hexDigit b.toNat]

/-- The sixteen bytes of an identifier, the seventh and the ninth of which say that it is a random
one. -/
def markRandom (bytes : List UInt8) : List UInt8 :=
  (bytes.modify 6 fun b => b &&& 0x0f ||| 0x40).modify 8 fun b => b &&& 0x3f ||| 0x80

/-- The digits of sixteen bytes in five groups with hyphens between them. -/
def identifier (bytes : List UInt8) : String :=
  let digits := (markRandom bytes).flatMap hexByte
  let group := fun from_ count => String.ofList ((digits.drop from_).take count)
  "-".intercalate [group 0 8, group 8 4, group 12 4, group 16 4, group 20 12]

/-- The identifiers that a stock of random bytes gives, sixteen bytes for each. -/
def identifiersFrom (stock : List UInt8) : IdSource := fun n _ =>
  identifier ((stock.drop (16 * n)).take 16)

end Stencil.CommandLine

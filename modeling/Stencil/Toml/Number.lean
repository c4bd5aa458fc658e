import Stencil.Toml.Scan

/-!
Numbers.

Digits may be grouped by single underscores. Integers have 64 bits, and the text of a float must
not be so large that it rounds to infinity; a negative float may be.
-/

namespace Stencil.Toml

inductive Number where
  | integer (n : Int)
  /-- A float by its text, without underscores. -/
  | float (text : String)
deriving DecidableEq, Repr

namespace Number

/-- Further digits of a number, each possibly after one underscore. -/
def moreDigits (base : Nat) : List Char → Option (List Char × List Char)
  | [] => some ([], [])
  | '_' :: c :: cs =>
    if isDigitOf base c then (moreDigits base cs).map fun (ds, rest) => (c :: ds, rest) else none
  | c :: cs =>
    if c = '_' then none
    else if isDigitOf base c then (moreDigits base cs).map fun (ds, rest) => (c :: ds, rest)
    else some ([], c :: cs)

/-- One digit or more. -/
def digits (base : Nat) : List Char → Option (List Char × List Char)
  | [] => none
  | c :: cs =>
    if isDigitOf base c then (moreDigits base cs).map fun (ds, rest) => (c :: ds, rest) else none

/-- Decimal digits of which the first is zero only if it stands alone. -/
def plainDigits : List Char → Option (List Char × List Char)
  | '0' :: cs => some (['0'], cs)
  | cs => digits 10 cs

/-- A sign, if there is one, and what follows. -/
def sign : List Char → List Char × List Char
  | '+' :: cs => (['+'], cs)
  | '-' :: cs => (['-'], cs)
  | cs => ([], cs)

/-- The digits after a full stop, if there is one. -/
def fraction (cs : List Char) : Option (Option (List Char) × List Char) :=
  match cs with
  | '.' :: rest => (digits 10 rest).map fun (ds, rest) => (some ds, rest)
  | _ => some (none, cs)

/-- The sign and digits of an exponent, if there is one. -/
def exponent (cs : List Char) : Option (Option (List Char × List Char) × List Char) :=
  match cs with
  | e :: rest =>
    if e = 'e' ∨ e = 'E' then
      let (s, rest) := sign rest
      (digits 10 rest).map fun (ds, rest) => (some (s, ds), rest)
    else some (none, cs)
  | [] => some (none, cs)

/-- The integer of a sign and digits, if it fits into 64 bits. -/
def bounded (negative : Bool) (n : Nat) : Option Int :=
  if negative then if n ≤ Nat.pow 2 63 then some (-(n : Int)) else none
  else if n < Nat.pow 2 63 then some n else none

/-- The least number that rounds to infinity as a double. -/
def overflowBound : Nat := Nat.pow 2 1024 - Nat.pow 2 970

/-- Whether `mantissa * 10 ^ exponent` rounds to infinity. -/
def overflows (mantissa : Nat) (exponent : Int) : Bool :=
  let size := ((Nat.toDigits 10 mantissa).length : Int) + exponent
  if mantissa = 0 ∨ size < 300 then false
  else if 320 < size then true
  else if 0 ≤ exponent then overflowBound ≤ mantissa * Nat.pow 10 exponent.toNat
  else overflowBound * Nat.pow 10 (-exponent).toNat ≤ mantissa

/-- A number in another base, after its two-character mark. -/
def inBase (base : Nat) (cs : List Char) : Option (Number × List Char) := do
  let (ds, rest) ← digits base cs
  let n ← bounded false (ofDigits base ds)
  return (.integer n, rest)

/-- A decimal integer or float after its sign. -/
def decimal (s : List Char) (cs : List Char) : Option (Number × List Char) := do
  let (whole, rest) ← plainDigits cs
  let (frac?, rest) ← fraction rest
  let (exp?, rest) ← exponent rest
  let negative := s = ['-']
  match frac?, exp? with
  | none, none => return (.integer (← bounded negative (ofDigits 10 whole)), rest)
  | _, _ =>
    let frac := frac?.getD []
    let (expSign, exp) := exp?.getD ([], ['0'])
    let power : Int := ofDigits 10 exp
    let power := (if expSign = ['-'] then -power else power) - frac.length
    if !negative && overflows (ofDigits 10 (whole ++ frac)) power then none
    else
      let text := s ++ whole ++ (if frac?.isSome then '.' :: frac else []) ++
        (if exp?.isSome then 'e' :: expSign ++ exp else [])
      return (.float (String.ofList text), rest)

/-- Any number, also `inf` and `nan`. -/
def read : Reads Number
  | '0' :: 'x' :: cs => inBase 16 cs
  | '0' :: 'o' :: cs => inBase 8 cs
  | '0' :: 'b' :: cs => inBase 2 cs
  | cs =>
    let (s, cs) := sign cs
    match cs with
    | 'i' :: 'n' :: 'f' :: rest => some (.float (String.ofList (s ++ ['i', 'n', 'f'])), rest)
    | 'n' :: 'a' :: 'n' :: rest => some (.float (String.ofList (s ++ ['n', 'a', 'n'])), rest)
    | _ => decimal s cs

end Number

end Stencil.Toml

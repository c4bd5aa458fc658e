import Stencil.Toml.Scan

/-!
Dates and times, checked against the calendar and the clock.
-/

namespace Stencil.Toml

structure Date where
  year : Nat
  month : Nat
  day : Nat
deriving DecidableEq, Repr

/-- A time of day with its nanoseconds. -/
structure Clock where
  hour : Nat
  minute : Nat
  second : Nat
  nanosecond : Nat
deriving DecidableEq, Repr

inductive Offset where
  | zulu
  | minutes (n : Int)
deriving DecidableEq, Repr

inductive Moment where
  | date (d : Date)
  | time (t : Clock)
  | dateTime (d : Date) (t : Clock) (offset : Option Offset)
deriving DecidableEq, Repr

/-- The number in decimal with at least `width` digits. -/
def padded (width n : Nat) : String :=
  let ds := Nat.toDigits 10 n
  String.ofList (List.replicate (width - ds.length) '0' ++ ds)

def Date.text (d : Date) : String :=
  padded 4 d.year ++ "-" ++ padded 2 d.month ++ "-" ++ padded 2 d.day

/-- Fractions of a second are written without zeros at their end. -/
def Clock.text (t : Clock) : String :=
  let whole := padded 2 t.hour ++ ":" ++ padded 2 t.minute ++ ":" ++ padded 2 t.second
  if t.nanosecond = 0 then whole
  else
    let ds := (padded 9 t.nanosecond).toList
    whole ++ "." ++ String.ofList (ds.reverse.dropWhile (· = '0')).reverse

def Offset.text : Offset → String
  | .zulu => "Z"
  | .minutes n =>
    (if n < 0 then "-" else "+") ++ padded 2 (n.natAbs / 60) ++ ":" ++ padded 2 (n.natAbs % 60)

def Moment.text : Moment → String
  | .date d => d.text
  | .time t => t.text
  | .dateTime d t offset => d.text ++ "T" ++ t.text ++ (offset.map Offset.text).getD ""

namespace Moment

def isLeapYear (year : Nat) : Bool := year % 4 = 0 && (year % 100 ≠ 0 || year % 400 = 0)

def daysIn (year month : Nat) : Nat :=
  match month with
  | 2 => if isLeapYear year then 29 else 28
  | 4 => 30
  | 6 => 30
  | 9 => 30
  | 11 => 30
  | _ => 31

/-- A number of exactly so many digits that lies between the bounds. -/
def field (width least most : Nat) (cs : List Char) : Option (Nat × List Char) :=
  let ds := cs.take width
  let n := ofDigits 10 ds
  if ds.length = width ∧ ds.all Char.isDigit ∧ least ≤ n ∧ n ≤ most then
    some (n, cs.drop width)
  else none

/-- The rest after the character `c`. -/
def mark (c : Char) : List Char → Option (List Char)
  | d :: cs => if c = d then some cs else none
  | [] => none

/-- Whether the text starts with so many digits and then `c`. -/
def opensWith (width : Nat) (c : Char) (cs : List Char) : Bool :=
  (field width 0 9999 cs).bind (fun (_, rest) => mark c rest) |>.isSome

def readDate (cs : List Char) : Option (Date × List Char) := do
  let (year, cs) ← field 4 0 9999 cs
  let cs ← mark '-' cs
  let (month, cs) ← field 2 1 12 cs
  let cs ← mark '-' cs
  let (day, cs) ← field 2 1 (daysIn year month) cs
  return (⟨year, month, day⟩, cs)

/-- The nanoseconds of the digits of a fraction; digits after the ninth are cut off. -/
def nanoseconds (ds : List Char) : Nat :=
  let ds := ds.take 9
  ofDigits 10 ds * Nat.pow 10 (9 - ds.length)

def readFraction (cs : List Char) : Nat × List Char :=
  match cs with
  | '.' :: rest =>
    let ds := rest.takeWhile Char.isDigit
    if ds.isEmpty then (0, cs) else (nanoseconds ds, rest.drop ds.length)
  | _ => (0, cs)

def readClock (cs : List Char) : Option (Clock × List Char) := do
  let (hour, cs) ← field 2 0 23 cs
  let cs ← mark ':' cs
  let (minute, cs) ← field 2 0 59 cs
  let cs ← mark ':' cs
  let (second, cs) ← field 2 0 60 cs
  let (nanosecond, cs) := readFraction cs
  return (⟨hour, minute, second, nanosecond⟩, cs)

def readOffset (cs : List Char) : Option (Option Offset × List Char) :=
  match cs with
  | [] => some (none, [])
  | c :: rest =>
    if c = 'Z' ∨ c = 'z' then some (some .zulu, rest)
    else if c = '+' ∨ c = '-' then do
      let (hours, rest) ← field 2 0 23 rest
      let rest ← mark ':' rest
      let (minutes, rest) ← field 2 0 59 rest
      let n : Int := hours * 60 + minutes
      return (some (.minutes (if c = '-' then -n else n)), rest)
    else some (none, cs)

/-- A time after a date is set off by a `T` or a space. -/
def isSeparator (c : Char) : Bool := c == 'T' || c == 't' || c == ' '

/-- Whether the text starts as dates and times do. -/
def starts (cs : List Char) : Bool := opensWith 4 '-' cs || opensWith 2 ':' cs

def read : Reads Moment := fun cs => do
  if opensWith 2 ':' cs then
    let (t, cs) ← readClock cs
    return (.time t, cs)
  else
    let (d, cs) ← readDate cs
    match cs with
    | c :: rest =>
      if isSeparator c && opensWith 2 ':' rest then
        let (t, rest) ← readClock rest
        let (offset, rest) ← readOffset rest
        return (.dateTime d t offset, rest)
      else return (.date d, cs)
    | [] => return (.date d, [])

end Moment

end Stencil.Toml

import Stencil.Toml.Moment
import Stencil.Toml.Number

/-!
Values, and tables while they are put together.

A table may be begun in four ways: by its own header, as the parent of the table of a header, by a
dotted key, or as an element of an array of tables. Only some of them may be extended later.
-/

namespace Stencil.Toml

inductive Value where
  | string (s : String)
  | number (n : Number)
  | boolean (b : Bool)
  | moment (m : Moment)
  | array (items : List Value)
  | table (entries : List (String × Value))

/-- How a table came into being. -/
inductive Origin where
  /-- Its own header. -/
  | header
  /-- The header of a table inside it. -/
  | implied
  /-- A dotted key. -/
  | dotted
deriving DecidableEq, Repr

/-- An entry of a table that is being put together. -/
inductive Node where
  | value (v : Value)
  | table (origin : Origin) (entries : List (String × Node))
  /-- The tables of an array, the last one first. -/
  | tables (last : List (String × Node)) (earlier : List (List (String × Node)))

abbrev Entries := List (String × Node)

namespace Entries

/-- Give a name another node. -/
def set (name : String) (node : Node) : Entries → Entries
  | [] => [(name, node)]
  | e :: es => if e.1 = name then (name, node) :: es else e :: set name node es

/-- Enter a node under a new name, below a path of dotted keys. The table that takes the entry must
have been begun by dotted keys as well. -/
def insertAt (name : String) (node : Node) : List String → Option Origin → Entries → Option Entries
  | [], origin, es =>
    if origin = none ∨ origin = some .dotted then
      if (es.lookup name).isSome then none else some (set name node es)
    else none
  | step :: path, _, es =>
    match es.lookup step with
    | none => do
      let inner ← insertAt name node path (some .dotted) []
      return set step (.table .dotted inner) es
    | some (.table origin inner) =>
      if origin = .header then none
      else do
        let inner ← insertAt name node path (some origin) inner
        return set step (.table origin inner) es
    | some (.tables last earlier) => do
      let last ← insertAt name node path (some .header) last
      return set step (.tables last earlier) es
    | some (.value _) => none

/-- Change the table that a path of a header leads to; tables on the way are begun if they do not
exist, and of an array of tables the last one counts. -/
def modifyAt (change : Entries → Option Entries) : List String → Entries → Option Entries
  | [], es => change es
  | step :: path, es =>
    match es.lookup step with
    | none => do
      let inner ← modifyAt change path []
      return set step (.table .implied inner) es
    | some (.table origin inner) => do
      let inner ← modifyAt change path inner
      return set step (.table origin inner) es
    | some (.tables last earlier) => do
      let last ← modifyAt change path last
      return set step (.tables last earlier) es
    | some (.value _) => none

/-- Begin a table by its header. -/
def beginTable (name : String) (es : Entries) : Option Entries :=
  match es.lookup name with
  | none => some (set name (.table .header []) es)
  | some (.table .implied inner) => some (set name (.table .header inner) es)
  | some _ => none

/-- Begin a further table of an array of tables. -/
def beginElement (name : String) (es : Entries) : Option Entries :=
  match es.lookup name with
  | none => some (set name (.tables [] []) es)
  | some (.tables last earlier) => some (set name (.tables [] (last :: earlier)) es)
  | some _ => none

mutual

/-- The value that a finished node is. -/
def finishNode : Node → Value
  | .value v => v
  | .table _ entries => .table (finish entries)
  | .tables last earlier => .array (finishAll earlier [.table (finish last)])

/-- The entries of a finished table. -/
def finish : List (String × Node) → List (String × Value)
  | [] => []
  | (name, node) :: es => (name, finishNode node) :: finish es

/-- The finished tables of an array, in order, before those that are given. -/
def finishAll : List (List (String × Node)) → List Value → List Value
  | [], items => items
  | es :: ess, items => finishAll ess (.table (finish es) :: items)

end

end Entries

end Stencil.Toml

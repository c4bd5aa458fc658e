import Stencil.Toml.Quoted
import Stencil.Toml.Table

/-!
Reading TOML documents.
-/

namespace Stencil.Toml

/-- How deep arrays and inline tables may be nested, and how many parts a key may have. -/
def depthLimit : Nat := 79

def isBareChar (c : Char) : Bool := c.isAlphanum || c == '-' || c == '_'

/-- One part of a key: a quoted string on one line, or a bare word. -/
def simpleKey : Reads String := fun cs =>
  match cs with
  | '"' :: rest => (Quoted.singleLine '"' true rest).map fun (s, rest) => (String.ofList s, rest)
  | '\'' :: rest => (Quoted.singleLine '\'' false rest).map fun (s, rest) => (String.ofList s, rest)
  | _ =>
    let word := cs.takeWhile isBareChar
    if word.isEmpty then none else some (String.ofList word, cs.drop word.length)

/-- The parts of a key, separated by full stops. -/
def keyParts : (fuel : Nat) → List Char → Option (List String × List Char)
  | 0, _ => none
  | fuel + 1, cs => do
    let (part, cs) ← simpleKey (skipBlanks cs)
    match skipBlanks cs with
    | '.' :: rest => do
      let (parts, rest) ← keyParts fuel rest
      return (part :: parts, rest)
    | rest => return ([part], rest)

/-- A key: the path to a table, and the last part. -/
def key (cs : List Char) : Option ((List String × String) × List Char) := do
  let (parts, rest) ← keyParts depthLimit cs
  let last ← parts.getLast?
  return ((parts.dropLast, last), rest)

/-- A value without further values in it. -/
def scalar : Reads Value
  | 't' :: 'r' :: 'u' :: 'e' :: rest => some (.boolean true, rest)
  | 'f' :: 'a' :: 'l' :: 's' :: 'e' :: rest => some (.boolean false, rest)
  | '"' :: rest => (Quoted.string ('"' :: rest)).map fun (s, rest) => (.string s, rest)
  | '\'' :: rest => (Quoted.string ('\'' :: rest)).map fun (s, rest) => (.string s, rest)
  | cs =>
    if Moment.starts cs then (Moment.read cs).map fun (m, rest) => (.moment m, rest)
    else (Number.read cs).map fun (n, rest) => (.number n, rest)

/-- The items of an array up to its closing bracket; a comma may follow the last one. -/
def items (item : Reads Value) : (fuel : Nat) → List Char → Option (List Value × List Char)
  | 0, _ => none
  | fuel + 1, cs => do
    match ← skipLayout (cs.length + 1) cs with
    | ']' :: rest => return ([], rest)
    | cs => do
      let (v, cs) ← item cs
      match ← skipLayout (cs.length + 1) cs with
      | ',' :: rest => do
        let (vs, rest) ← items item fuel rest
        return (v :: vs, rest)
      | ']' :: rest => return ([v], rest)
      | _ => none

/-- A key with its value. -/
def keyValue (item : Reads Value) (cs : List Char) :
    Option ((List String × String × Value) × List Char) := do
  let ((path, name), cs) ← key cs
  let cs ← Moment.mark '=' cs
  let (v, cs) ← item (skipBlanks cs)
  return ((path, name, v), cs)

/-- The entries of an inline table up to its closing brace; no comma may follow the last one. -/
def inlineEntries (item : Reads Value) :
    (fuel : Nat) → Entries → List Char → Option (Entries × List Char)
  | 0, _, _ => none
  | fuel + 1, es, cs => do
    let ((path, name, v), cs) ← keyValue item cs
    let es ← es.insertAt name (.value v) path none
    match skipBlanks cs with
    | ',' :: rest => inlineEntries item fuel es rest
    | '\x7d' :: rest => return (es, rest)
    | _ => none

/-- A value in which arrays and inline tables are nested at most so deep. -/
def value : (depth : Nat) → List Char → Option (Value × List Char)
  | 0, cs => scalar cs
  | depth + 1, cs =>
    match cs with
    | '[' :: rest => (items (value depth) (rest.length + 1) rest).map fun (vs, rest) => (.array vs, rest)
    | '\x7b' :: rest =>
      match skipBlanks rest with
      | '\x7d' :: rest => some (.table [], rest)
      | _ =>
        (inlineEntries (value depth) (rest.length + 1) [] rest).map fun (es, rest) =>
          (.table (Entries.finish es), rest)
    | _ => scalar cs

/-- A document that is being read: its entries, and the table that the last header began. -/
structure Draft where
  entries : Entries
  current : List String

/-- Begin the table of a header that is closed by `close`. -/
def Draft.header (d : Draft) (start : String → Entries → Option Entries) (close : List Char)
    (cs : List Char) : Option (Draft × List Char) := do
  let ((path, name), cs) ← key cs
  if close.isPrefixOf cs then
    let rest ← lineEnd? (cs.drop close.length)
    let entries ← d.entries.modifyAt (start name) path
    return (⟨entries, path ++ [name]⟩, rest)
  else none

/-- Read one line that is neither blank nor a comment. -/
def Draft.line (d : Draft) (cs : List Char) : Option (Draft × List Char) :=
  match cs with
  | '[' :: '[' :: rest => d.header Entries.beginElement [']', ']'] rest
  | '[' :: rest => d.header Entries.beginTable [']'] rest
  | _ => do
    let ((path, name, v), cs) ← keyValue (value depthLimit) cs
    let rest ← lineEnd? cs
    let entries ← d.entries.modifyAt (fun es => es.insertAt name (.value v) path none) d.current
    return ({ d with entries }, rest)

/-- Read the lines of a document. -/
def Draft.lines : (fuel : Nat) → Draft → List Char → Option Draft
  | 0, _, _ => none
  | fuel + 1, d, cs =>
    match skipBlanks cs with
    | [] => some d
    | c :: rest =>
      if c = '#' ∨ c = '\n' ∨ c = '\r' then (lineEnd? (c :: rest)).bind (Draft.lines fuel d)
      else (d.line (c :: rest)).bind fun (d, cs) => Draft.lines fuel d cs

/-- The entries of a document, if it is one. A byte order mark at its start is passed over. -/
def parse (source : String) : Option (List (String × Value)) :=
  let cs := match source.toList with
    | '\ufeff' :: cs => cs
    | cs => cs
  (Draft.lines (cs.length + 1) ⟨[], []⟩ cs).map fun d => Entries.finish d.entries

end Stencil.Toml

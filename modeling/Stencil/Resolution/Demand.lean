import Stencil.Placeholder
import Stencil.Resolution.Rule

/-!
Computing the value of a key, and of every key that it refers to.

Keys get their values in one table. A key that is asked for and has no value is computed by its
rule, which may ask for further keys. The names of the keys that wait for one another are kept in
a list, innermost first; a name that is asked for while it is in this list depends on itself. The
list grows by one name of the template with each step inward, which bounds the depth.
-/

namespace Stencil

/-- Where identifiers come from: the one that is issued as the `n`-th, for the key of a name. -/
abbrev IdSource := Nat → String → String

/-- The values found so far, and how many identifiers were issued for them. -/
structure Progress where
  values : Bindings
  issued : Nat

/-- What an attempt comes to, and the progress that it leaves behind even if it fails. -/
abbrev Attempt (α : Type) := Except ResolveError α × Progress

namespace Progress

def empty : Progress := ⟨∅, 0⟩

/-- Enter the value of a key. -/
def enter (p : Progress) (name value : String) : Progress :=
  { p with values := p.values.insert name value }

/-- Enter several values, except for the names whose values must not be replaced. -/
def enterAll (p : Progress) (fixed : List String) (entries : Bindings) : Progress :=
  entries.toList.foldl
    (fun p entry => if entry.1 ∈ fixed then p else p.enter entry.1 entry.2) p

end Progress

/-- The names that wait for `name`, from its own first occurrence on, and `name` again. -/
def cycle (waiting : List String) (name : String) : List String :=
  (waiting.reverse.dropWhile (· ≠ name)) ++ [name]

/-- Ask for the names one after the other, up to the first failure. -/
def askAll (ask : String → Progress → Attempt String) :
    List String → Progress → Attempt Unit
  | [], p => (.ok (), p)
  | name :: names, p =>
    match ask name p with
    | (.ok _, p) => askAll ask names p
    | (.error e, p) => (.error e, p)

/-- Fill in the placeholders of a format, after asking for every name that it refers to. -/
def interpolateWith (ask : String → Progress → Attempt String) (format : String)
    (p : Progress) : Attempt String :=
  match askAll ask (Placeholder.references format) p with
  | (.ok _, p) => (.ok (Placeholder.substitute (p.values[·]?) format), p)
  | (.error e, p) => (.error e, p)

/-- The value that a rule gives, not entered yet. -/
def Rule.eval (ids : IdSource) (ask : String → Progress → Attempt String) (name : String) :
    Rule → Progress → Attempt String
  | .constant value, p => (.ok value, p)
  | .identifier, p => (.ok (ids p.issued name), { p with issued := p.issued + 1 })
  | .formatted format transform, p =>
    match interpolateWith ask format p with
    | (.ok text, p) => (.ok (transform.apply text), p)
    | (.error e, p) => (.error e, p)

/-- Compute a key without a value by the rule of the given kind, and enter the value. -/
def Key.compute (ids : IdSource) (ask : String → Progress → Attempt String) (kind : KeyKind)
    (k : Key) (p : Progress) : Attempt String :=
  match Rule.ofKey kind k with
  | .error e => (.error e, p)
  | .ok rule =>
    match rule.eval ids ask k.name p with
    | (.ok value, p) => (.ok value, p.enter k.name value)
    | (.error e, p) => (.error e, p)

/-- Merge what a key has come to into the table, and read its value there. -/
def Key.merge (k : Key) (fixed : List String) : Attempt String → Attempt String
  | (.error e, p) => (.error e, p)
  | (.ok value, p) =>
    let p := p.enterAll fixed ((∅ : Bindings).insert k.name value)
    match p.values[k.name]? with
    | some value => (.ok value, p)
    | none => (.error (.undefinedSymbol k.name), p)

namespace Template

/-- The keys of the template that do not wait. -/
def idle (t : Template) (waiting : List String) : List Key :=
  t.keys.filter (·.name ∉ waiting)

theorem length_idle_cons_lt {t : Template} {waiting : List String} {name : String} {k : Key}
    (hk : t.key? name = some k) (hw : name ∉ waiting) :
    (t.idle (name :: waiting)).length < (t.idle waiting).length := by
  have hsub : t.idle (name :: waiting) = (t.idle waiting).filter (·.name ≠ name) := by
    simp [idle, List.filter_filter]
  rw [hsub, List.length_filter_lt_length_iff_exists]
  have hn := name_of_key? hk
  refine ⟨k, ?_, by simp [hn]⟩
  simp [idle, mem_keys_of_key? hk, hn, hw]

/-- The value of the key of that name, which is computed if the key has none. -/
def demand (t : Template) (ids : IdSource) (fixed waiting : List String) (name : String)
    (p : Progress) : Attempt String :=
  match p.values[name]? with
  | some value => (.ok value, p)
  | none =>
    match _hk : t.key? name with
    | none => (.error (.undefinedSymbol name), p)
    | some k =>
      match k.kind? with
      | none => (.error (.unknownKind k.name k.typeTag), p)
      | some kind =>
        if _hw : name ∈ waiting then (.error (.cyclicReference (cycle waiting name)), p)
        else
          k.merge fixed <|
            k.compute ids (fun n q => t.demand ids fixed (name :: waiting) n q) kind p
termination_by (t.idle waiting).length
decreasing_by exact length_idle_cons_lt _hk _hw

end Template

end Stencil

import Stencil.Resolution.Demand

/-!
Sessions: resolving the keys of one template step by step.

A session keeps the values found so far, also those found by a step that failed in the end. The
keys that a chosen case has set are remembered, so that inputs do not replace them.
-/

namespace Stencil

structure Session where
  template : Template
  progress : Progress
  /-- The names that cases have set. -/
  overridden : List String

/-- A folder to copy, under its final name. -/
structure ResolvedFolder where
  source : String
  target : String
deriving DecidableEq, Repr, Inhabited

/-- What a step of a session comes to, and the session after it. -/
abbrev Outcome (α : Type) := Except ResolveError α × Session

namespace Session

/-- A session in which no key has a value. -/
def start (t : Template) : Session := ⟨t, .empty, []⟩

def values (s : Session) : Bindings := s.progress.values

/-- The session with the progress that an attempt has made. -/
def keep {α : Type} (s : Session) (a : Attempt α) : Outcome α :=
  (a.1, { s with progress := a.2 })

/-- Set a value, whether or not there is one. -/
def set (s : Session) (name value : String) : Session :=
  { s with progress := s.progress.enter name value }

/-- Enter the user's values, except for the names that a case has set. -/
def absorbInputs (s : Session) (inputs : Bindings) : Session :=
  { s with progress := s.progress.enterAll s.overridden inputs }

/-- Enter the values that were handled, except for the names that a case has set. -/
def merge (s : Session) (handled : Bindings) : Session :=
  { s with progress := s.progress.enterAll s.overridden handled }

/-- The value of the key of that name, which is computed if the key has none. -/
def resolveSymbol (s : Session) (ids : IdSource) (name : String) : Outcome String :=
  s.keep (s.template.demand ids s.overridden [] name s.progress)

/-- Fill in the placeholders of a format; names without a value are computed. -/
def interpolate (s : Session) (ids : IdSource) (format : String) : Outcome String :=
  s.keep (interpolateWith (s.template.demand ids s.overridden []) format s.progress)

/-- The value of one key, taken to be of the given kind. -/
def evaluate (s : Session) (ids : IdSource) (kind : KeyKind) (k : Key) : Outcome String :=
  match s.values[k.name]? with
  | some value => (.ok value, s)
  | none => s.keep (k.compute ids (s.template.demand ids s.overridden [k.name]) kind s.progress)

/-- The values of several keys, all taken to be of the given kind, up to the first failure. -/
def handle (s : Session) (ids : IdSource) (kind : KeyKind) : List Key → Outcome Bindings
  | [] => (.ok ∅, s)
  | k :: ks =>
    match s.evaluate ids kind k with
    | (.error e, s) => (.error e, s)
    | (.ok value, s) =>
      match s.handle ids kind ks with
      | (.error e, s) => (.error e, s)
      | (.ok rest, s) => (.ok (rest.insertIfNew k.name value), s)

/-- Handle the keys of the template kind by kind, and merge the values of each kind. -/
def handleKinds (s : Session) (ids : IdSource) : List KeyKind → Outcome Unit
  | [] => (.ok (), s)
  | kind :: kinds =>
    match s.handle ids kind (s.template.keysOfKind kind) with
    | (.error e, s) => (.error e, s)
    | (.ok handled, s) => (s.merge handled).handleKinds ids kinds

/-- The first reason, if any, not to start computing: a type that is no kind, or an input without
a value. -/
def obstacle? (s : Session) : Option ResolveError :=
  match s.template.keys.find? (·.kind?.isNone) with
  | some k => some (.unknownKind k.name k.typeTag)
  | none =>
    match (s.template.keysOfKind .input).find? fun k => !s.values.contains k.name with
    | some k => some (.missingInput k.name)
    | none => none

/-- Enter the inputs and compute every key that has no value then. -/
def resolveAll (s : Session) (ids : IdSource) (inputs : Bindings) : Outcome Unit :=
  let s := s.absorbInputs inputs
  match s.obstacle? with
  | some e => (.error e, s)
  | none => s.handleKinds ids KeyKind.computed

/-- The names and values that a case sets. Each key of a case must have a `value`. -/
def overridesOf (c : Case) : Except ResolveError (List (String × String)) :=
  c.overrides.mapM fun k => do return (k.name, ← k.need "value")

/-- Set one key for good. -/
def override (s : Session) (name value : String) : Session :=
  { s.set name value with overridden := s.overridden.insert name }

/-- Set the keys of a case; nothing is set if any of them cannot be. -/
def applyCase (s : Session) (switch case : String) : Outcome Unit :=
  match (s.template.switch? switch).bind (·.case? case) with
  | none => (.error (.undefinedCase switch case), s)
  | some c =>
    match overridesOf c with
    | .error e => (.error e, s)
    | .ok entries => (.ok (), entries.foldl (fun s entry => s.override entry.1 entry.2) s)

/-- Apply the chosen cases in order, up to the first failure. -/
def applyCases (s : Session) : List (String × String) → Outcome Unit
  | [] => (.ok (), s)
  | (switch, case) :: rest =>
    match s.applyCase switch case with
    | (.error e, s) => (.error e, s)
    | (.ok _, s) => s.applyCases rest

/-- Whether a new folder name is the name of a key and not a format. -/
def namesKey (s : Session) (rename : String) : Bool :=
  (Placeholder.references rename).isEmpty &&
    (s.values.contains rename || (s.template.key? rename).isSome)

/-- The final name of a folder: the value of the key that it names, or else a format. -/
def resolveFolder (s : Session) (ids : IdSource) (f : Folder) : Outcome String :=
  if s.namesKey f.rename then s.resolveSymbol ids f.rename else s.interpolate ids f.rename

def resolveFolderList (s : Session) (ids : IdSource) :
    List Folder → Outcome (List ResolvedFolder)
  | [] => (.ok [], s)
  | f :: fs =>
    match s.resolveFolder ids f with
    | (.error e, s) => (.error e, s)
    | (.ok target, s) =>
      match s.resolveFolderList ids fs with
      | (.error e, s) => (.error e, s)
      | (.ok rest, s) => (.ok (⟨f.source, target⟩ :: rest), s)

/-- The final names of all folders of the template. -/
def resolveFolders (s : Session) (ids : IdSource) : Outcome (List ResolvedFolder) :=
  s.resolveFolderList ids s.template.folders

/-- Turn to another template. All values are forgotten, but no identifier is issued again. -/
def select (s : Session) (t : Template) : Session :=
  ⟨t, { s.progress with values := ∅ }, []⟩

end Session

end Stencil

import Stencil.Proofs.Resolution.Operations

/-!
Sessions with their guard in sight.

While keys are computed, the names of those that are not finished are kept on a stack, which guards
against cycles. A demand passes this stack inwards. Here it is a part of the state instead, which is
pushed and popped, and every state that an operation passes through is recorded.

Nothing but the guard keeps demands from leading to further demands forever. So they are followed
to some depth only, and an operation ends if it comes to the same at all depths that suffice.
-/

namespace Stencil

/-- A session at one moment, with the names of the keys that are being computed, innermost last. -/
structure Moment where
  session : Session
  resolving : List String

/-- The present moment, and all moments before it, the last one first. -/
structure History where
  now : Moment
  past : List Moment

/-- What an operation comes to, and the history then. -/
abbrev Ending (α : Type) := Except ResolveError α × History

/-- What is done to some depth comes to this, at every depth that suffices. -/
def Ends {α : Type} (f : (depth : Nat) → Option α) (a : α) : Prop :=
  ∃ enough, ∀ depth ≥ enough, f depth = some a

namespace History

def start (t : Template) : History := ⟨⟨.start t, []⟩, []⟩

def moments (h : History) : List Moment := h.now :: h.past

/-- Go on to another moment. -/
def next (h : History) (m : Moment) : History := ⟨m, h.moments⟩

/-- Change the session. -/
def update (h : History) (s : Session) : History := h.next { h.now with session := s }

def push (h : History) (name : String) : History :=
  h.next { h.now with resolving := h.now.resolving ++ [name] }

def pop (h : History) : History := h.next { h.now with resolving := h.now.resolving.dropLast }

def set (h : History) (name value : String) : History := h.update (h.now.session.set name value)

/-- Count an identifier as issued. -/
def issue (h : History) : History :=
  let p := h.now.session.progress
  h.update { h.now.session with progress := { p with issued := p.issued + 1 } }

/-- Set several values one by one, except for the names that a case has set. -/
def setAll (h : History) (entries : Bindings) : History :=
  entries.toList.foldl
    (fun h entry => if entry.1 ∈ h.now.session.overridden then h else h.set entry.1 entry.2) h

variable (ids : IdSource)

section

-- How symbols are resolved.
variable (ask : String → History → Option (Ending String))

def resolveSymbols (names : List String) (h : History) : Option (Ending Unit) :=
  match names with
  | [] => some (.ok (), h)
  | name :: names => do
    match ← ask name h with
    | (.error e, h) => some (.error e, h)
    | (.ok _, h) => resolveSymbols names h

def interpolate (format : String) (h : History) : Option (Ending String) := do
  match ← resolveSymbols ask (Placeholder.references format) h with
  | (.error e, h) => some (.error e, h)
  | (.ok _, h) => some (.ok (Placeholder.substitute (h.now.session.values[·]?) format), h)

def apply (name : String) (rule : Rule) (h : History) : Option (Ending String) :=
  match rule with
  | .constant value => some (.ok value, h)
  | .identifier => some (.ok (ids h.now.session.progress.issued name), h.issue)
  | .formatted format transform => do
    match ← interpolate ask format h with
    | (.error e, h) => some (.error e, h)
    | (.ok text, h) => some (.ok (transform.apply text), h)

def evaluate (kind : KeyKind) (k : Key) (h : History) : Option (Ending String) :=
  match h.now.session.values[k.name]? with
  | some value => some (.ok value, h)
  | none =>
    if k.name ∈ h.now.resolving then
      some (.error (.cyclicReference
        (h.now.resolving.dropWhile (· ≠ k.name) ++ [k.name])), h)
    else
      match Rule.ofKey kind k with
      | .error e => some (.error e, h)
      | .ok rule => do
        let (result, h) ← apply ids ask k.name rule (h.push k.name)
        let h := h.pop
        match result with
        | .error e => some (.error e, h)
        | .ok value => some (.ok value, h.set k.name value)

def handle (kind : KeyKind) (ks : List Key) (h : History) : Option (Ending Bindings) :=
  match ks with
  | [] => some (.ok ∅, h)
  | k :: ks => do
    match ← evaluate ids ask kind k h with
    | (.error e, h) => some (.error e, h)
    | (.ok value, h) =>
      match ← handle kind ks h with
      | (.error e, h) => some (.error e, h)
      | (.ok rest, h) => some (.ok (rest.insertIfNew k.name value), h)

end

/-- Resolve a symbol, if demands need not be followed deeper than this. -/
def resolveSymbol : (depth : Nat) → String → History → Option (Ending String)
  | 0, _, _ => none
  | depth + 1, name, h =>
    match h.now.session.values[name]? with
    | some value => some (.ok value, h)
    | none =>
      match h.now.session.template.key? name with
      | none => some (.error (.undefinedSymbol name), h)
      | some k =>
        match k.kind? with
        | none => some (.error (.unknownKind k.name k.typeTag), h)
        | some kind => do
          match ← handle ids (resolveSymbol depth) kind [k] h with
          | (.error e, h) => some (.error e, h)
          | (.ok handled, h) =>
            let h := h.setAll handled
            match h.now.session.values[name]? with
            | some value => some (.ok value, h)
            | none => some (.error (.undefinedSymbol name), h)

variable (depth : Nat)

/-- Handle the keys of the template kind by kind. -/
def handleKinds (h : History) : List KeyKind → Option (Ending Unit)
  | [] => some (.ok (), h)
  | kind :: kinds => do
    match ← h.handle ids (resolveSymbol ids depth) kind
        (h.now.session.template.keysOfKind kind) with
    | (.error e, h) => some (.error e, h)
    | (.ok handled, h) => (h.setAll handled).handleKinds kinds

def resolveAll (h : History) (inputs : Bindings) : Option (Ending Unit) :=
  let h := h.setAll inputs
  match h.now.session.obstacle? with
  | some e => some (.error e, h)
  | none => h.handleKinds ids depth KeyKind.computed

def resolveFolder (h : History) (f : Folder) : Option (Ending String) :=
  if h.now.session.namesKey f.rename then h.resolveSymbol ids depth f.rename
  else h.interpolate (resolveSymbol ids depth) f.rename

def resolveFolderList (h : History) : List Folder → Option (Ending (List ResolvedFolder))
  | [] => some (.ok [], h)
  | f :: fs => do
    match ← h.resolveFolder ids depth f with
    | (.error e, h) => some (.error e, h)
    | (.ok target, h) =>
      match ← h.resolveFolderList fs with
      | (.error e, h) => some (.error e, h)
      | (.ok rest, h) => some (.ok (⟨f.source, target⟩ :: rest), h)

def applyCase (h : History) (switch case : String) : Ending Unit :=
  match (h.now.session.template.switch? switch).bind (·.case? case) with
  | none => (.error (.undefinedCase switch case), h)
  | some c =>
    match Session.overridesOf c with
    | .error e => (.error e, h)
    | .ok entries =>
      (.ok (), entries.foldl (fun h e => h.update (h.now.session.override e.1 e.2)) h)

def perform (h : History) : (op : Operation) → Option (Ending op.Answer)
  | .ask (.symbol name) => h.resolveSymbol ids depth name
  | .ask (.text format) => h.interpolate (resolveSymbol ids depth) format
  | .ask .folders => h.resolveFolderList ids depth h.now.session.template.folders
  | .ask (.keys kind ks) => h.handle ids (resolveSymbol ids depth) kind ks
  | .resolveAll inputs => h.resolveAll ids depth inputs
  | .absorb inputs => some (.ok (), h.setAll inputs)
  | .applyCase switch case => some (h.applyCase switch case)
  | .select t => some (.ok (), h.next ⟨h.now.session.select t, []⟩)

/-- The history after several operations, if all of them end. -/
def performAll (h : History) : List Operation → Option History
  | [] => some h
  | op :: ops => do
    let (_, h) ← h.perform ids depth op
    h.performAll ops

end History

end Stencil

import Stencil.Markup.Element
import Stencil.Markup.Lexeme
import Stencil.Markup.SyntaxError

/-!
Reading a document from its tokens.

The tokens are read one by one. A reader keeps the elements that are still open, innermost first,
and the stage it has reached in the innermost tag; each token either takes it to the next stage or
is the first one that cannot be right.
-/

namespace Stencil.Markup

/-- An element whose end has not been read. Its attributes and children are listed newest first. -/
structure OpenElement where
  start : Nat
  name : Located String
  attributes : List Attribute
  children : List Element
deriving Repr, Inhabited

/-- The whole element, once its last `>` has been read. -/
def OpenElement.close (e : OpenElement) (stop : Nat) : Element :=
  .mk e.name e.attributes.reverse e.children.reverse ⟨e.start, stop⟩

/-- What has been read last. -/
inductive Stage where
  /-- Nothing at all. -/
  | start
  /-- The `<` of a start tag. -/
  | opened (start : Nat)
  /-- The name of a start tag, or one of its attributes. -/
  | inTag (e : OpenElement)
  /-- The name of an attribute. -/
  | named (e : OpenElement) (attr : Located String)
  /-- The `=` of an attribute. -/
  | assigned (e : OpenElement) (attr : Located String)
  /-- The `>` of a start tag, or a child. -/
  | inside (e : OpenElement)
  /-- The `</` of a closing tag. -/
  | closing (e : OpenElement)
  /-- The name of a closing tag. -/
  | closingNamed (e : OpenElement) (name : Located String)
  /-- The whole document. -/
  | complete (root : Element)
deriving Repr, Inhabited

/-- The punctuation that could come next. Names and strings are never listed. -/
def Stage.expected : Stage → List Expected
  | .start => [.token .tagOpen]
  | .opened _ => []
  | .inTag _ => [.token .selfClose, .token .tagClose]
  | .named _ _ => [.token .equals]
  | .assigned _ _ => []
  | .inside _ => [.token .tagOpen, .token .closeTagOpen]
  | .closing _ => []
  | .closingNamed _ _ => [.token .tagClose]
  | .complete _ => [.endOfInput]

structure Reader where
  stage : Stage
  /-- The open elements around the one that the stage is about, innermost first. -/
  around : List OpenElement
deriving Repr, Inhabited

namespace Reader

def init : Reader := ⟨.start, []⟩

/-- Go on after a whole element: with the one around it, or with the end of the document. -/
def finish (around : List OpenElement) (e : Element) : Reader :=
  match around with
  | [] => ⟨.complete e, []⟩
  | parent :: rest => ⟨.inside { parent with children := e :: parent.children }, rest⟩

/-- Read one token. -/
def step (r : Reader) (t : Located Token) : Except SyntaxError Reader :=
  match r.stage, t.value with
  | .start, .tagOpen => .ok ⟨.opened t.span.start, r.around⟩
  | .opened start, .name n => .ok ⟨.inTag ⟨start, ⟨n, t.span⟩, [], []⟩, r.around⟩
  | .inTag e, .name n => .ok ⟨.named e ⟨n, t.span⟩, r.around⟩
  | .inTag e, .tagClose => .ok ⟨.inside e, r.around⟩
  | .inTag e, .selfClose => .ok (finish r.around (e.close t.span.stop))
  | .named e a, .equals => .ok ⟨.assigned e a, r.around⟩
  | .assigned e a, .string v =>
    .ok ⟨.inTag { e with attributes := ⟨a, ⟨v, t.span⟩⟩ :: e.attributes }, r.around⟩
  | .inside e, .tagOpen => .ok ⟨.opened t.span.start, e :: r.around⟩
  | .inside e, .closeTagOpen => .ok ⟨.closing e, r.around⟩
  | .closing e, .name n => .ok ⟨.closingNamed e ⟨n, t.span⟩, r.around⟩
  | .closingNamed e n, .tagClose =>
    if n.value = e.name.value then .ok (finish r.around (e.close t.span.stop))
    else .error ⟨.mismatch n.value e.name.value, ⟨e.start, t.span.stop⟩, []⟩
  | stage, found => .error ⟨.unexpected (some found), t.span, stage.expected⟩

/-- Read the tokens in order, up to the first one that cannot be right. -/
def run (r : Reader) (ts : List (Located Token)) : Except SyntaxError Reader := ts.foldlM step r

@[simp] theorem run_nil (r : Reader) : r.run [] = .ok r := rfl

theorem run_cons (r : Reader) (t : Located Token) (ts : List (Located Token)) :
    r.run (t :: ts) = (r.step t).bind (run · ts) := rfl

theorem run_append (r : Reader) (ts us : List (Located Token)) :
    r.run (ts ++ us) = (r.run ts).bind (run · us) := List.foldlM_append

end Reader

/-- Where the last token ends, or the end of the text if there is none. -/
def lastStop (length : Nat) (ts : List (Located Token)) : Nat :=
  (ts.getLast?.map (·.span.stop)).getD length

/-- The document that the tokens of a text of `length` bytes form. -/
def Document.ofTokens (length : Nat) (ts : List (Located Token)) : Except SyntaxError Document :=
  match Reader.run .init ts with
  | .error e => .error e
  | .ok ⟨.complete root, _⟩ => .ok ⟨root⟩
  | .ok ⟨stage, _⟩ => .error ⟨.unexpected none, ⟨length, lastStop length ts⟩, stage.expected⟩

/-- Read a document from its text. -/
def Document.parse (source : String) : Except SyntaxError Document :=
  Document.ofTokens (byteSize source.toList) (tokens source)

end Stencil.Markup

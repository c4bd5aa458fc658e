import Stencil.Answers.Basic
import Stencil.Template.Registry

/-!
Asking the user for what the answers lack.

A question is put again until a line answers it. Lines are taken from the input in order, and the
lines after the last answer are left for others.
-/

namespace Stencil.Dialogue

/-- A line of input without its line break, or `none` if it is not a text. -/
abbrev Line := Option String

/-- Whether a byte ends a line or is dropped from the end of one. -/
def isBreak (c : Char) : Bool := c == '\r' || c == '\n'

/-- The line that the bytes form. -/
def Line.ofBytes (bytes : List UInt8) : Line :=
  (String.fromUTF8? ⟨bytes.toArray⟩).map fun s =>
    String.ofList (s.toList.reverse.dropWhile isBreak).reverse

/-- The stretches of bytes up to each line feed, `current` being the start of the first one, from
its end. -/
def rawLines (current : List UInt8) : List UInt8 → List (List UInt8)
  | [] => if current.isEmpty then [] else [current.reverse]
  | b :: bs => if b = 10 then (b :: current).reverse :: rawLines [] bs else rawLines (b :: current) bs

/-- The lines of an input. -/
def linesOf (bytes : ByteArray) : List Line := (rawLines [] bytes.toList).map Line.ofBytes

inductive PromptError where
  /-- There is no further line. -/
  | endOfInput (what : String)
  /-- The next line is not a text. -/
  | unreadable
deriving DecidableEq, Repr

def PromptError.message : PromptError → String
  | .endOfInput what => "input ended while asking for " ++ what
  | .unreadable => "Failed to read answers: stream did not contain valid UTF-8"

structure Question where
  /-- What is asked for. -/
  what : String
  /-- The text written each time the question is put. -/
  prompt : String
  /-- The text written after a line that does not answer the question. -/
  refusal : String
  accepts : String → Bool

/-- What came out of a part of the dialogue, what was written, and the lines not read. -/
structure Reply (α : Type) where
  result : α
  output : String
  rest : List Line

/-- Put a question until a line answers it. -/
def Question.ask (q : Question) : List Line → Reply (Except PromptError String)
  | [] => ⟨.error (.endOfInput q.what), q.prompt, []⟩
  | none :: rest => ⟨.error .unreadable, q.prompt, rest⟩
  | some answer :: rest =>
    if q.accepts answer then ⟨.ok answer, q.prompt, rest⟩
    else
      let r := q.ask rest
      { r with output := q.prompt ++ q.refusal ++ r.output }

/-- Put the questions that have no answer yet, up to the first one that gets none. The answers
gathered are kept in any case. -/
def gather (known : Bindings) : List Question → List Line → Reply (Option PromptError × Bindings)
  | [], lines => ⟨(none, known), "", lines⟩
  | q :: qs, lines =>
    if known.contains q.what then gather known qs lines
    else
      match q.ask lines with
      | ⟨.error e, output, rest⟩ => ⟨(some e, known), output, rest⟩
      | ⟨.ok answer, output, rest⟩ =>
        let r := gather (known.insert q.what answer) qs rest
        { r with output := output ++ r.output }

/-- The choice among the registered templates. -/
def templateQuestion (r : Registry) : Question where
  what := "a template"
  prompt := "Your choice: "
  refusal := "Choice not valid, try again...\n"
  accepts := r.contains

/-- The list of templates that comes before the choice. -/
def templateList (r : Registry) : String :=
  "\nPlease select the template you want to create:\n\n" ++
    String.join (r.descriptions.map fun d => "  * " ++ d.1 ++ ": " ++ d.2 ++ "\n") ++ "\n"

def chooseTemplate (r : Registry) (lines : List Line) : Reply (Except PromptError String) :=
  let reply := (templateQuestion r).ask lines
  { reply with output := templateList r ++ reply.output }

/-- Any line but an empty one answers the question for an input key. -/
def inputQuestion (k : Key) : Question where
  what := k.name
  prompt := (k.attr? "prompt").getD k.name
  refusal := ""
  accepts := fun line => line ≠ ""

/-- The name of one of its cases answers the question for a switch. -/
def caseQuestion (s : Switch) : Question where
  what := s.name
  prompt := s.prompt?.getD s.name ++ " [" ++ ", ".intercalate s.caseNames ++ "]:\n"
  refusal := ""
  accepts := fun line => line ∈ s.caseNames

def inputQuestions (t : Template) : List Question := (t.keysOfKind .input).map inputQuestion

def caseQuestions (t : Template) : List Question := (t.switchesOfType "input").map caseQuestion

def collectInputs (t : Template) (known : Bindings) (lines : List Line) :
    Reply (Option PromptError × Bindings) :=
  gather known (inputQuestions t) lines

def collectCases (t : Template) (known : Bindings) (lines : List Line) :
    Reply (Option PromptError × Bindings) :=
  gather known (caseQuestions t) lines

/-- The missing inputs and then the missing cases of the template of that name. -/
def completeFor (r : Registry) (name : String) (a : Answers) (lines : List Line) :
    Reply (Except PromptError Answers) :=
  match r.get? name with
  | none => ⟨.ok { a with template? := some name }, "", lines⟩
  | some t =>
    match collectInputs t a.inputs lines with
    | ⟨(some e, _), output, rest⟩ => ⟨.error e, output, rest⟩
    | ⟨(none, inputs), output, rest⟩ =>
      match collectCases t a.cases rest with
      | ⟨(some e, _), more, rest⟩ => ⟨.error e, output ++ more, rest⟩
      | ⟨(none, cases), more, rest⟩ => ⟨.ok ⟨some name, inputs, cases⟩, output ++ more, rest⟩

/-- Ask for the template if none is chosen, and then for what that template needs. -/
def complete (r : Registry) (a : Answers) (lines : List Line) :
    Reply (Except PromptError Answers) :=
  match a.template? with
  | some name => completeFor r name a lines
  | none =>
    match chooseTemplate r lines with
    | ⟨.error e, output, rest⟩ => ⟨.error e, output, rest⟩
    | ⟨.ok name, output, rest⟩ =>
      let reply := completeFor r name a rest
      { reply with output := output ++ reply.output }

end Stencil.Dialogue

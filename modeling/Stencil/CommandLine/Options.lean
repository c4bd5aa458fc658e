import Stencil.Files.Path

/-!
The options of the command line.

Arguments are read in order. The first one that asks for help or cannot be right decides, and what
follows it is not read.
-/

namespace Stencil.CommandLine

/-- What can be set on the command line. -/
inductive Parameter where
  | config
  | workspace
  | template
  | answers
  | logFile
  | list
  | dryRun
  | verbose
  | help
deriving DecidableEq, Repr

/-- How a parameter is written, and what the help says about it. -/
structure Usage where
  letter? : Option Char
  word : String
  /-- What its value is called, if it has one. -/
  value? : Option String
  about : String
  default? : Option String
deriving DecidableEq, Repr

namespace Parameter

def all : List Parameter :=
  [config, workspace, template, answers, logFile, list, dryRun, verbose, help]

def usage : Parameter → Usage
  | config => ⟨some 'c', "config", some "CONFIG", "Template config document", some "config.xml"⟩
  | workspace =>
    ⟨some 'w', "workspace", some "WORKSPACE",
      "Output directory; emptied before the template is written", some "workspace"⟩
  | template =>
    ⟨some 't', "template", some "TEMPLATE", "Template to create (asked for if omitted)", none⟩
  | answers =>
    ⟨some 'a', "answers", some "ANSWERS", "Answers file (TOML) with the template, inputs and cases",
      none⟩
  | logFile => ⟨none, "log-file", some "LOG_FILE", "Log destination", some "angrylion.log"⟩
  | list => ⟨some 'l', "list", none, "List the templates and exit", none⟩
  | dryRun =>
    ⟨none, "dry-run", none, "Print the resolved keys and folders without writing files", none⟩
  | verbose => ⟨some 'v', "verbose", none, "Mirror log events to stderr", none⟩
  | help => ⟨some 'h', "help", none, "Print help", none⟩

/-- Whether it is followed by a value. -/
def takesValue (p : Parameter) : Bool := p.usage.value?.isSome

/-- Whether its value may be the empty text. Only the name of a template is no path. -/
def allowsEmpty (p : Parameter) : Bool := p == template

def ofLetter? (c : Char) : Option Parameter := all.find? (·.usage.letter? = some c)

def ofWord? (word : String) : Option Parameter := all.find? (·.usage.word = word)

/-- The parameter as the help and the messages name it. -/
def title (p : Parameter) : String :=
  "--" ++ p.usage.word ++ (p.usage.value?.map fun v => " <" ++ v ++ ">").getD ""

end Parameter

/-! ### The help -/

/-- What stands on the left of a line of the help. -/
def helpTitle (p : Parameter) : String :=
  "  " ++ (p.usage.letter?.map fun c => "-" ++ String.singleton c ++ ", ").getD "    " ++ p.title

/-- The width of the left side of the help. -/
def helpColumn : Nat := ((Parameter.all.map (helpTitle ·)).map String.length).foldl max 0 + 2

def helpLine (p : Parameter) : String :=
  let title := helpTitle p
  title ++ String.ofList (List.replicate (helpColumn - title.length) ' ') ++ p.usage.about ++
    (p.usage.default?.map fun d => " [default: " ++ d ++ "]").getD "" ++ "\n"

def usageLine : String := "Usage: angrylion [OPTIONS]\n"

def helpText : String :=
  "Create projects from key-driven templates\n\n" ++ usageLine ++ "\nOptions:\n" ++
    String.join (Parameter.all.map helpLine)

/-! ### Errors -/

inductive UsageError where
  /-- An argument that means nothing. -/
  | unexpected (argument : String)
  | missingValue (p : Parameter)
  | repeated (p : Parameter)
  /-- A value for a parameter that has none. -/
  | unwantedValue (p : Parameter) (value : String)
deriving DecidableEq, Repr

def UsageError.reason : UsageError → String
  | unexpected argument => "unexpected argument '" ++ argument ++ "' found"
  | missingValue p => "a value is required for '" ++ p.title ++ "' but none was supplied"
  | repeated p => "the argument '" ++ p.title ++ "' cannot be used multiple times"
  | unwantedValue p value =>
    "unexpected value '" ++ value ++ "' for '" ++ p.title ++ "' found; no more were expected"

def UsageError.message (e : UsageError) : String :=
  "error: " ++ e.reason ++ "\n\n" ++ usageLine ++ "\nFor more information, try '--help'.\n"

/-- Why arguments are not read to their end. -/
inductive Stop where
  | help
  | invalid (error : UsageError)
deriving DecidableEq, Repr

/-! ### Reading arguments -/

/-- The parameters given so far with their values, the last one first. -/
abbrev Given := List (Parameter × String)

namespace Given

/-- Give a parameter that takes a value. -/
def set (g : Given) (p : Parameter) (value : String) : Except Stop Given :=
  if (g.lookup p).isSome then .error (.invalid (.repeated p))
  else if value = "" ∧ !p.allowsEmpty then .error (.invalid (.missingValue p))
  else .ok ((p, value) :: g)

/-- Give a parameter without a value. -/
def raise (g : Given) (p : Parameter) : Except Stop Given :=
  if p = .help then .error .help
  else if (g.lookup p).isSome then .error (.invalid (.repeated p))
  else .ok ((p, "") :: g)

/-- Read letters after a hyphen. What follows the letter of a parameter with a value is the value;
if nothing does, the parameter waits for the next argument. -/
def readLetters (g : Given) : List Char → Except Stop (Given × Option Parameter)
  | [] => .ok (g, none)
  | c :: cs =>
    match Parameter.ofLetter? c with
    | none => .error (.invalid (.unexpected ("-" ++ String.singleton c)))
    | some p =>
      if p.takesValue then
        match cs with
        | [] => .ok (g, some p)
        | '=' :: value => (g.set p (String.ofList value)).map fun g => (g, none)
        | value => (g.set p (String.ofList value)).map fun g => (g, none)
      else
        match g.raise p with
        | .error e => .error e
        | .ok g => readLetters g cs

/-- Read what follows two hyphens: a word, which may have a value after an equals sign. -/
def readWord (g : Given) (cs : List Char) : Except Stop (Given × Option Parameter) :=
  let word := String.ofList (cs.takeWhile (· ≠ '='))
  match Parameter.ofWord? word, cs.dropWhile (· ≠ '=') with
  | none, _ => .error (.invalid (.unexpected ("--" ++ word)))
  | some p, [] =>
    if p.takesValue then .ok (g, some p) else (g.raise p).map fun g => (g, none)
  | some p, _ :: value =>
    if p.takesValue then (g.set p (String.ofList value)).map fun g => (g, none)
    else .error (.invalid (.unwantedValue p (String.ofList value)))

end Given

/-- The forms of an argument. -/
inductive Form where
  /-- Two hyphens and nothing else: no parameter comes after it. -/
  | close
  | word (cs : List Char)
  | letters (cs : List Char)
  | plain
deriving DecidableEq, Repr

/-- A hyphen alone is a plain argument. -/
def formOf (argument : String) : Form :=
  match argument.toList with
  | ['-', '-'] => .close
  | '-' :: '-' :: cs => .word cs
  | '-' :: c :: cs => .letters (c :: cs)
  | _ => .plain

/-- Read arguments; `waiting` is the parameter whose value comes next. -/
def readArguments (g : Given) : (waiting : Option Parameter) → List String → Except Stop Given
  | none, [] => .ok g
  | some p, [] => .error (.invalid (.missingValue p))
  | waiting, argument :: arguments =>
    match formOf argument, waiting with
    | .plain, some p =>
      match g.set p argument with
      | .error e => .error e
      | .ok g => readArguments g none arguments
    | _, some p => .error (.invalid (.missingValue p))
    | .plain, none => .error (.invalid (.unexpected argument))
    | .close, none =>
      match arguments with
      | [] => .ok g
      | extra :: _ => .error (.invalid (.unexpected extra))
    | .word cs, none =>
      match g.readWord cs with
      | .error e => .error e
      | .ok (g, waiting) => readArguments g waiting arguments
    | .letters cs, none =>
      match g.readLetters cs with
      | .error e => .error e
      | .ok (g, waiting) => readArguments g waiting arguments

structure Options where
  config : Path
  workspace : Path
  template? : Option String
  answers? : Option Path
  logFile : Path
  list : Bool
  dryRun : Bool
  verbose : Bool
deriving DecidableEq, Repr

namespace Options

/-- The value of a parameter, or its default. -/
def valueOf (g : Given) (p : Parameter) : String :=
  ((g.lookup p).or p.usage.default?).getD ""

def ofGiven (g : Given) : Options where
  config := Path.ofText (valueOf g .config)
  workspace := Path.ofText (valueOf g .workspace)
  template? := g.lookup .template
  answers? := (g.lookup .answers).map Path.ofText
  logFile := Path.ofText (valueOf g .logFile)
  list := (g.lookup .list).isSome
  dryRun := (g.lookup .dryRun).isSome
  verbose := (g.lookup .verbose).isSome

/-- The options that the arguments set. -/
def read (arguments : List String) : Except Stop Options :=
  (readArguments [] none arguments).map ofGiven

/-- The directory of the config document. -/
def configDir (o : Options) : Path :=
  match o.config.parent? with
  | some p => if p = Path.empty then Path.ofText "." else p
  | none => Path.ofText "."

end Options

end Stencil.CommandLine

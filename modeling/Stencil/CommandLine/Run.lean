import Stencil.Answers.Dialogue
import Stencil.Answers.Toml
import Stencil.CommandLine.Options
import Stencil.Report.Config
import Stencil.Scaffold

/-!
A run of the program.

A run first reads what it needs from files, then asks the user for what is missing, and then shows
or writes the result. Each of these parts can end it.
-/

namespace Stencil.CommandLine

/-- What a run comes to. -/
structure Outcome where
  code : Nat
  /-- What was written for the user. -/
  output : String
  /-- What was written about errors. -/
  errors : String
  log : List Diagnostic
  files : FileSystem

namespace Outcome

/-- A run that did what it was asked to. -/
def done (fs : FileSystem) (output : String) : Outcome := ⟨0, output, "", [], fs⟩

/-- A run that fails. The text about the error is followed by the notice for its severity. -/
def failed (fs : FileSystem) (severity : Severity) (logged text : String) : Outcome :=
  ⟨1, "", text ++ "\n" ++ (severity.exitNotice?.map (· ++ "\n")).getD "", [⟨severity, logged⟩], fs⟩

end Outcome

/-- A run that has read its files. -/
structure Prepared where
  options : Options
  registry : Registry
  /-- The answers that were given without asking for them. -/
  answers : Answers
  files : FileSystem

/-- The code of a run that breaks down because a report cannot be shown. -/
def brokenCode : Nat := 101

/-- A config document that cannot be loaded. -/
def rejectConfig (fs : FileSystem) (o : Options) (source : String) (e : Config.LoadError) :
    Outcome :=
  match e.render? o.config.text source with
  | none => ⟨brokenCode, "", "Label start is after its end\n", [⟨.error, "invalid config"⟩], fs⟩
  | some report =>
    .failed fs .error ("invalid config: " ++ e.message)
      (report ++ "\n\nfix the above errors in the config")

/-- The answers in the file that the options name. -/
def readAnswers (fs : FileSystem) (o : Options) : Except String Answers :=
  match o.answers? with
  | none => .ok Answers.empty
  | some p =>
    let reject := fun reason => "Error loading answers '" ++ p.text ++ "': " ++ reason
    match fs.readText p with
    | .error e => .error (reject ("Failed to read answers: " ++ e.message))
    | .ok toml =>
      match Answers.ofToml? toml with
      | none => .error (reject "Failed to parse answers TOML")
      | some a => .ok a

/-- The template that the options name is chosen, whatever the answers file says. -/
def chooseTemplate (o : Options) (a : Answers) : Answers :=
  match o.template? with
  | none => a
  | some name => { a with template? := some name }

/-- The part of a run after its config document is loaded: the list of templates, or the answers. -/
def prepareAnswers (fs : FileSystem) (o : Options) (r : Registry) : Except Outcome Prepared :=
  if o.list then
    .error (.done fs (String.join (r.descriptions.map fun d => d.1 ++ ": " ++ d.2 ++ "\n")))
  else
    match readAnswers fs o with
    | .error text => .error (.failed fs .error text text)
    | .ok a => .ok ⟨o, r, chooseTemplate o a, fs⟩

/-- The part of a run that opens the log and reads files. -/
def prepareOptions (fs : FileSystem) (o : Options) : Except Outcome Prepared :=
  match fs.openLog o.logFile with
  | (.error e, fs) =>
    .error ⟨1, "", "Error opening log file '" ++ o.logFile.text ++ "': " ++ e.message ++ "\n", [], fs⟩
  | (.ok (), fs) =>
    match fs.readText o.config with
    | .error e =>
      let text := "Error reading file '" ++ o.config.text ++ "': " ++ e.message
      .error (.failed fs .error text text)
    | .ok source =>
      match Config.load source with
      | .error e => .error (rejectConfig fs o source e)
      | .ok r => prepareAnswers fs o r

/-- The part of a run before the dialogue. -/
def prepare (arguments : List String) (fs : FileSystem) : Except Outcome Prepared :=
  match Options.read arguments with
  | .error .help => .error (.done fs helpText)
  | .error (.invalid e) => .error ⟨2, "", e.message, [], fs⟩
  | .ok o => prepareOptions fs o

namespace Prepared

/-- Ask the user for the answers that are missing. -/
def ask (p : Prepared) (lines : List Dialogue.Line) :
    Dialogue.Reply (Except Dialogue.PromptError Answers) :=
  Dialogue.complete p.registry p.answers lines

/-- A run whose dialogue fails. -/
def abandon (p : Prepared) (e : Dialogue.PromptError) : Outcome :=
  .failed p.files .error ("cannot collect answers: " ++ e.message) ("Error: " ++ e.message)

/-- The keys and folders of a resolved template, a line each. -/
def listing (r : ResolvedTemplate) : String :=
  String.join (r.values.toList.map fun e => e.1 ++ " = " ++ e.2 ++ "\n") ++
    String.join (r.folders.map fun f => f.source ++ " -> " ++ f.target ++ "\n")

def rejectScaffold (fs : FileSystem) (e : ScaffoldError) : Outcome :=
  .failed fs e.severity e.message ("Error: " ++ e.message)

/-- What the user is told when the workspace is filled. -/
def farewell (workspace : Path) (count : Nat) : String :=
  "\nYour template files are inside the '" ++ workspace.text ++ "' folder (" ++ toString count ++
    " files), copy them where you need them.\n"

/-- The directories that the part of a run after the dialogue reads. -/
def sources (p : Prepared) (ids : IdSource) (a : Answers) : List Path :=
  match p.registry.resolve ids a with
  | .error _ => []
  | .ok resolved =>
    let root := sourceRoot p.options.configDir resolved.values
    resolved.folders.map fun f => root.join (Path.ofText f.source)

/-- The part of a run after the dialogue. -/
def finish (p : Prepared) (ids : IdSource) (a : Answers) : Outcome :=
  if p.options.dryRun then
    match p.registry.resolve ids a with
    | .error e => rejectScaffold p.files e
    | .ok resolved => .done p.files (listing resolved)
  else
    let made := scaffold p.registry ids a p.options.configDir ⟨p.options.workspace⟩ p.files
    let outcome :=
      match made.result with
      | .error e => rejectScaffold made.files e
      | .ok (_, written) => .done made.files (farewell p.options.workspace written.length)
    { outcome with log := made.warnings ++ outcome.log }

end Prepared

/-- A whole run on these arguments, files and lines of input. -/
def run (ids : IdSource) (arguments : List String) (fs : FileSystem) (lines : List Dialogue.Line) :
    Outcome :=
  match prepare arguments fs with
  | .error outcome => outcome
  | .ok p =>
    let reply := p.ask lines
    let outcome :=
      match reply.result with
      | .error e => p.abandon e
      | .ok a => p.finish ids a
    { outcome with output := reply.output ++ outcome.output }

end Stencil.CommandLine

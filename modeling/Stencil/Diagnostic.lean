/-!
Messages with a severity, and how they reach the log.
-/

namespace Stencil

inductive Severity where
  | debug
  | info
  | warn
  | error
  | critical
deriving DecidableEq, Repr, Inhabited

namespace Severity

/-- How serious it is; more is worse. -/
def rank : Severity → Nat
  | debug => 0
  | info => 1
  | warn => 2
  | error => 3
  | critical => 4

def all : List Severity := [debug, info, warn, error, critical]

def name : Severity → String
  | debug => "debug"
  | info => "info"
  | warn => "warn"
  | error => "error"
  | critical => "critical"

def ofName? (name : String) : Option Severity := all.find? (·.name = name)

/-- Errors, and what is worse, end the run. -/
def isFatal (s : Severity) : Bool := error.rank ≤ s.rank

/-- What the user is told when the run ends for this reason. -/
def exitNotice? : Severity → Option String
  | error => some "Error, exiting, see log for more info"
  | critical => some "Critical error, exiting, see log for more info"
  | _ => none

/-- The levels that the log knows. -/
inductive Level where
  | debug
  | info
  | warn
  | error
deriving DecidableEq, Repr, Inhabited

/-- The log has no level above errors. -/
def level : Severity → Level
  | debug => .debug
  | info => .info
  | warn => .warn
  | error => .error
  | critical => .error

def Level.name : Level → String
  | .debug => "debug"
  | .info => "info"
  | .warn => "warn"
  | .error => "error"

/-- The mark that tells errors from what is worse in the log. -/
def logMark? : Severity → Option String
  | error => some "error"
  | critical => some "critical"
  | _ => none

end Severity

structure Diagnostic where
  severity : Severity
  message : String
deriving DecidableEq, Repr, Inhabited

def Diagnostic.display (d : Diagnostic) : String := d.severity.name ++ ": " ++ d.message

end Stencil

import DeclCatalogue.Json.Basic

/-!
# Log entries

What is logged along the way, and the set-up of the log itself: the level below which entries are
dropped, and the outputs that entries go to, each with a level of its own.
-/

namespace DeclCatalogue

/-- How serious a log entry is. -/
inductive LogLevel where
  | debug | info | warning | error
  deriving DecidableEq, Repr

namespace LogLevel

/-- The word for a level. -/
def word : LogLevel → String
  | .debug => "debug"
  | .info => "info"
  | .warning => "warning"
  | .error => "error"

/-- The number that orders the levels. -/
def number : LogLevel → Nat
  | .debug => 10
  | .info => 20
  | .warning => 30
  | .error => 40

end LogLevel

/-- A log entry: what happened, and the values that it happened with. -/
structure LogEntry where
  level : LogLevel
  event : String
  fields : Fields
  deriving DecidableEq, Repr

/-- The set-up of the log: its level and the levels of its outputs, as numbers. -/
structure LogSetup where
  level : Nat
  outputs : List Nat
  deriving DecidableEq, Repr

namespace LogSetup

/-- Sets the log and all of its outputs to the level for debugging or for plain running. A log
without outputs gets one. -/
def configure (setup : LogSetup) (debug : Bool) : LogSetup :=
  let level := (if debug then LogLevel.debug else LogLevel.info).number
  { level := level
    outputs := if setup.outputs.isEmpty then [level] else setup.outputs.map fun _ => level }

end LogSetup

end DeclCatalogue

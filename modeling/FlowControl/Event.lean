/-!
# Notes for the log

Parts of the library report what they do as events of their own types.  Each event
has a note: how serious it is, which part reports it, what happened and with which
values.  `Note.line` writes a note on one line.
-/

namespace FlowControl

/-- How serious a note is. -/
inductive Level where
  | trace
  | debug
  | info
  | warning
  | error
  deriving DecidableEq, Repr

/-- The name of a level. -/
def Level.name : Level → String
  | .trace => "TRACE"
  | .debug => "DEBUG"
  | .info => "INFO"
  | .warning => "WARN"
  | .error => "ERROR"

/-- A report for the log: its source is the part that reports, its values are named. -/
structure Note where
  level : Level
  source : String
  message : String
  values : List (String × String)
  deriving DecidableEq, Repr

/-- The part of the log line that a named value takes. -/
def Note.entry (value : String × String) : String := value.1 ++ "=" ++ value.2

/-- A note on one line. -/
def Note.line (n : Note) : String :=
  n.level.name ++ " reelguard::" ++ n.source ++ " | " ++ n.message ++ " | " ++
    String.intercalate " " (n.values.map Note.entry)

end FlowControl

/-!
# Log levels

The verbosity of the log goes from silent to debugging. Names of levels are read whatever the case
of their ASCII letters; two levels have a second name.
-/

namespace Archmap

inductive LogLevel where
  | silent
  | error
  | warn
  /-- Summaries of finished module graphs. -/
  | info
  /-- How classes were grouped and dependencies aggregated. -/
  | debug
  deriving DecidableEq

/-- A text that names no log level. -/
structure LogLevel.Error where
  level : String
  deriving DecidableEq

def LogLevel.Error.message (e : LogLevel.Error) : String :=
  "Invalid log level '" ++ e.level ++ "', expected one of off, error, warn, info, debug"

namespace LogLevel

/-- The level used where none is given. -/
def standard : LogLevel := .info

/-- The names of levels, in lower case. -/
def names : List (String × LogLevel) :=
  [("silent", silent), ("off", silent), ("error", error), ("warn", warn), ("warning", warn),
    ("info", info), ("debug", debug)]

def ofText (text : String) : Except LogLevel.Error LogLevel :=
  match names.lookup (String.ofList (text.toList.map Char.toLower)) with
  | some level => .ok level
  | none => .error ⟨text⟩

/-- The first name of a level. -/
def text : LogLevel → String
  | silent => "off"
  | error => "error"
  | warn => "warn"
  | info => "info"
  | debug => "debug"

end LogLevel

end Archmap

import Archmap.Settings.Basic
import Archmap.Text.Lowercase

/-!
# Validation of settings

Both numbers must be at least one, and the log level must be known, whatever the case of its
letters. Of several invalid values the first in this order is reported.
-/

namespace Archmap

/-- A value that settings must not have. -/
inductive InvalidSetting where
  /-- No cycle may be detected. -/
  | noCycles
  /-- The threshold for aggregating side by side is zero. -/
  | noThreshold
  | unknownLevel (level : String)
  deriving DecidableEq

namespace Settings

/-- The log levels that settings may name, in lower case. -/
def levels : List String := ["off", "silent", "error", "warn", "warning", "info", "debug"]

def fault? (settings : Settings) : Option InvalidSetting :=
  if settings.cycles.maxNumberToDetect = 0 then some .noCycles
  else if settings.aggregation.parallelThreshold = 0 then some .noThreshold
  else if levels.contains (lowercase settings.logging.level) then none
  else some (.unknownLevel settings.logging.level)

def validate (settings : Settings) : Except InvalidSetting Unit :=
  match settings.fault? with
  | some fault => .error fault
  | none => .ok ()

end Settings

namespace InvalidSetting

def field : InvalidSetting → String
  | noCycles => "cycles.max_number_to_detect"
  | noThreshold => "aggregation.parallel_threshold"
  | unknownLevel _ => "logging.level"

def hint : InvalidSetting → String
  | noCycles => "must be at least 1"
  | noThreshold => "must be at least 1; set aggregation.parallel = false to disable"
  | unknownLevel level =>
    "unknown level '" ++ level ++ "', expected one of " ++ ", ".intercalate Settings.levels

def message (fault : InvalidSetting) : String :=
  "invalid config value for '" ++ fault.field ++ "': " ++ fault.hint

end InvalidSetting

end Archmap

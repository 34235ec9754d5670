/-!
# Settings

The settings come in three sections: limits for the search for cycles, how module dependencies are
aggregated, and the verbosity of the log.
-/

namespace Archmap

/-- Limits for the search for cycles. -/
structure CycleSettings where
  /-- The search stops after this many cycles. -/
  maxNumberToDetect : UInt64 := 100
  deriving DecidableEq

/-- How module dependencies are aggregated. -/
structure AggregationSettings where
  /-- Modules are aggregated side by side. -/
  parallel : Bool := true
  /-- The least number of modules for which that is done. -/
  parallelThreshold : UInt64 := 64
  deriving DecidableEq

structure LoggingSettings where
  level : String := "info"
  deriving DecidableEq

structure Settings where
  cycles : CycleSettings := {}
  aggregation : AggregationSettings := {}
  logging : LoggingSettings := {}
  deriving DecidableEq

namespace AggregationSettings

/-- One module after the other, whatever their number. -/
def sequential : AggregationSettings := { parallel := false }

/-- So many modules are aggregated side by side. -/
def runsParallel (settings : AggregationSettings) (moduleCount : Nat) : Bool :=
  settings.parallel && settings.parallelThreshold.toNat ≤ moduleCount

/-- Applies a function to every element of a list, side by side if the settings say so. -/
def mapModules (settings : AggregationSettings) (f : α → β) (xs : List α) : List β :=
  if settings.runsParallel xs.length then
    (xs.map fun x => Task.spawn fun _ => f x).map Task.get
  else xs.map f

/-- The settings decide how the work is done and not what comes of it. -/
theorem mapModules_eq_map (settings : AggregationSettings) (f : α → β) (xs : List α) :
    settings.mapModules f xs = xs.map f := by
  unfold mapModules
  split
  · simp [List.map_map, Function.comp_def, Task.spawn]
  · rfl

end AggregationSettings

end Archmap

import Archmap.Data.Decoder
import Archmap.Settings.Basic

/-!
# Settings as data

Every section and every field may be left out and then has its default. Sections and fields are
looked at in the order of their names.
-/

namespace Archmap

namespace CycleSettings

def toValue (settings : CycleSettings) : Value :=
  .map [("max_number_to_detect", .unsigned settings.maxNumberToDetect)]

def ofValue (surplus : Surplus) : Value → Decoded CycleSettings
  | .map entries => do
    let max ← Value.field? entries "max_number_to_detect" Value.asCount
    return ⟨max.getD ({} : CycleSettings).maxNumberToDetect⟩
  | .list values => do
    let max ← Value.element? values 0 Value.asCount
    Value.finished surplus values 1
    return ⟨max.getD ({} : CycleSettings).maxNumberToDetect⟩
  | value => .fail (.wrongSort value (.record "CycleSettings"))

end CycleSettings

namespace AggregationSettings

def toValue (settings : AggregationSettings) : Value :=
  .map [("parallel", .boolean settings.parallel),
    ("parallel_threshold", .unsigned settings.parallelThreshold)]

def ofValue (surplus : Surplus) : Value → Decoded AggregationSettings
  | .map entries => do
    let parallel ← Value.field? entries "parallel" Value.asBoolean
    let threshold ← Value.field? entries "parallel_threshold" Value.asCount
    return ⟨parallel.getD ({} : AggregationSettings).parallel,
      threshold.getD ({} : AggregationSettings).parallelThreshold⟩
  | .list values => do
    let parallel ← Value.element? values 0 Value.asBoolean
    let threshold ← Value.element? values 1 Value.asCount
    Value.finished surplus values 2
    return ⟨parallel.getD ({} : AggregationSettings).parallel,
      threshold.getD ({} : AggregationSettings).parallelThreshold⟩
  | value => .fail (.wrongSort value (.record "AggregationSettings"))

end AggregationSettings

namespace LoggingSettings

def toValue (settings : LoggingSettings) : Value :=
  .map [("level", .text settings.level)]

def ofValue (surplus : Surplus) : Value → Decoded LoggingSettings
  | .map entries => do
    let level ← Value.field? entries "level" Value.asText
    return ⟨level.getD ({} : LoggingSettings).level⟩
  | .list values => do
    let level ← Value.element? values 0 Value.asText
    Value.finished surplus values 1
    return ⟨level.getD ({} : LoggingSettings).level⟩
  | value => .fail (.wrongSort value (.record "LoggingSettings"))

end LoggingSettings

namespace Settings

def toValue (settings : Settings) : Value :=
  .map [("aggregation", settings.aggregation.toValue), ("cycles", settings.cycles.toValue),
    ("logging", settings.logging.toValue)]

def ofValue (surplus : Surplus) : Value → Decoded Settings
  | .map entries => do
    let aggregation ← Value.field? entries "aggregation" (AggregationSettings.ofValue surplus)
    let cycles ← Value.field? entries "cycles" (CycleSettings.ofValue surplus)
    let logging ← Value.field? entries "logging" (LoggingSettings.ofValue surplus)
    return ⟨cycles.getD {}, aggregation.getD {}, logging.getD {}⟩
  | .list values => do
    let cycles ← Value.element? values 0 (CycleSettings.ofValue surplus)
    let aggregation ← Value.element? values 1 (AggregationSettings.ofValue surplus)
    let logging ← Value.element? values 2 (LoggingSettings.ofValue surplus)
    Value.finished surplus values 3
    return ⟨cycles.getD {}, aggregation.getD {}, logging.getD {}⟩
  | value => .fail (.wrongSort value (.record "ModgraphConfig"))

end Settings

end Archmap

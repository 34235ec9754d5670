import Archmap.Proofs.Data.Records
import Archmap.Settings.Data

/-!
# What settings are decoded from

A section of the settings is a record all of whose fields may be left out, and so are the settings as
a whole, whose fields are the sections. What is decoded from a value is therefore told field by field:
a field has what the value says, or its default.
-/

namespace Archmap

open Decoded Value

variable {v : Value} {surplus : Surplus}

theorem CycleSettings.ofValue_eq_ok_iff {settings : CycleSettings} :
    CycleSettings.ofValue surplus v = .ok settings ↔
      v.IsRecord surplus 1 ∧ HasOr asCount ({} : CycleSettings).maxNumberToDetect
        (v.field "max_number_to_detect" 0) settings.maxNumberToDetect :=
  optionalField_eq_ok_iff "CycleSettings" CycleSettings.mk (fun _ => rfl) rfl fun _ => rfl

theorem AggregationSettings.ofValue_eq_ok_iff {settings : AggregationSettings} :
    AggregationSettings.ofValue surplus v = .ok settings ↔
      v.IsRecord surplus 2
        ∧ HasOr asBoolean ({} : AggregationSettings).parallel (v.field "parallel" 0)
            settings.parallel
        ∧ HasOr asCount ({} : AggregationSettings).parallelThreshold
            (v.field "parallel_threshold" 1) settings.parallelThreshold := by
  rw [hasOr_iff, hasOr_iff]
  cases v with
  | map entries =>
      simp only [ofValue, bind_eq_ok_iff, field?_eq_ok_iff, pure_eq_ok_iff]
      constructor
      · rintro ⟨parallel, hparallel, threshold, hthreshold, rfl⟩
        exact ⟨trivial, ⟨parallel, hparallel, rfl⟩, threshold, hthreshold, rfl⟩
      · rintro ⟨-, ⟨parallel, hparallel, hdefault⟩, threshold, hthreshold, hdefault'⟩
        exact ⟨parallel, hparallel, threshold, hthreshold, by rw [hdefault, hdefault']⟩
  | list values =>
      simp only [ofValue, bind_eq_ok_iff, element?_eq_ok_iff, finished_eq_ok_iff, exists_const,
        pure_eq_ok_iff]
      constructor
      · rintro ⟨parallel, hparallel, threshold, hthreshold, hrecord, rfl⟩
        exact ⟨hrecord, ⟨parallel, hparallel, rfl⟩, threshold, hthreshold, rfl⟩
      · rintro ⟨hrecord, ⟨parallel, hparallel, hdefault⟩, threshold, hthreshold, hdefault'⟩
        exact ⟨parallel, hparallel, threshold, hthreshold, hrecord, by rw [hdefault, hdefault']⟩
  | _ => exact iff_of_false fail_ne_ok fun h => h.1

theorem LoggingSettings.ofValue_eq_ok_iff {settings : LoggingSettings} :
    LoggingSettings.ofValue surplus v = .ok settings ↔
      v.IsRecord surplus 1
        ∧ HasOr asText ({} : LoggingSettings).level (v.field "level" 0) settings.level :=
  optionalField_eq_ok_iff "LoggingSettings" LoggingSettings.mk (fun _ => rfl) rfl fun _ => rfl

theorem Settings.ofValue_eq_ok_iff {settings : Settings} :
    Settings.ofValue surplus v = .ok settings ↔
      v.IsRecord surplus 3
        ∧ HasOr (CycleSettings.ofValue surplus) {} (v.field "cycles" 0) settings.cycles
        ∧ HasOr (AggregationSettings.ofValue surplus) {} (v.field "aggregation" 1)
            settings.aggregation
        ∧ HasOr (LoggingSettings.ofValue surplus) {} (v.field "logging" 2) settings.logging := by
  rw [hasOr_iff, hasOr_iff, hasOr_iff]
  cases v with
  | map entries =>
      simp only [ofValue, bind_eq_ok_iff, field?_eq_ok_iff, pure_eq_ok_iff]
      constructor
      · rintro ⟨aggregation, haggregation, cycles, hcycles, logging, hlogging, rfl⟩
        exact ⟨trivial, ⟨cycles, hcycles, rfl⟩, ⟨aggregation, haggregation, rfl⟩, logging, hlogging,
          rfl⟩
      · rintro ⟨-, ⟨cycles, hcycles, hdefault⟩, ⟨aggregation, haggregation, hdefault'⟩, logging,
          hlogging, hdefault''⟩
        exact ⟨aggregation, haggregation, cycles, hcycles, logging, hlogging,
          by rw [hdefault, hdefault', hdefault'']⟩
  | list values =>
      simp only [ofValue, bind_eq_ok_iff, element?_eq_ok_iff, finished_eq_ok_iff, exists_const,
        pure_eq_ok_iff]
      constructor
      · rintro ⟨cycles, hcycles, aggregation, haggregation, logging, hlogging, hrecord, rfl⟩
        exact ⟨hrecord, ⟨cycles, hcycles, rfl⟩, ⟨aggregation, haggregation, rfl⟩, logging, hlogging,
          rfl⟩
      · rintro ⟨hrecord, ⟨cycles, hcycles, hdefault⟩, ⟨aggregation, haggregation, hdefault'⟩,
          logging, hlogging, hdefault''⟩
        exact ⟨cycles, hcycles, aggregation, haggregation, logging, hlogging, hrecord,
          by rw [hdefault, hdefault', hdefault'']⟩
  | _ => exact iff_of_false fail_ne_ok fun h => h.1

end Archmap

import Archmap.Proofs.Ascending
import Archmap.Proofs.Data.Records
import Archmap.Proofs.Settings.Sections

/-!
# Encoding loses nothing

What is encoded is decoded to what it was (`Lossless`), since the laws of the records hold of what
encoding writes into their fields. Only the mark of ignored classes is an identifier that cannot be
decoded.

In the other direction a value need not be the one that encoding would write: it may have surplus
keys, leave out fields that have defaults, or list the fields of a record. But there is no way around
the checks of class names and identifiers, as the texts that a result was decoded from stand in the
value and pass the check (`encoding_lossless`).
-/

namespace Archmap

open Decoded Value

variable {α : Type} {encode : α → Value} {decode : Value → Decoded α} {proper : α → Prop}

/-- What is proper is decoded from its encoding, and whatever is decoded from any value at all is
proper, so that it survives being encoded and decoded again. -/
structure Lossless (proper : α → Prop) (encode : α → Value) (decode : Value → Decoded α) : Prop where
  decode_encode : ∀ a, proper a → decode (encode a) = .ok a
  proper_of_decode : ∀ v a, decode v = .ok a → proper a
  decode_again : ∀ v a, decode v = .ok a → decode (encode a) = .ok a

theorem Lossless.of_decode_encode (hencode : ∀ a, proper a → decode (encode a) = .ok a)
    (hproper : ∀ v a, decode v = .ok a → proper a) : Lossless proper encode decode :=
  ⟨hencode, hproper, fun v a h => hencode a (hproper v a h)⟩

/-- Where everything is proper, decoding has to undo encoding and that is all. -/
theorem Lossless.of_forall (h : ∀ a, decode (encode a) = .ok a) :
    Lossless (fun _ => True) encode decode :=
  .of_decode_encode (fun a _ => h a) fun _ _ _ => trivial

/-! ## Classes and dependencies -/

theorem ClassName.ofValue_toValue (name : ClassName) : ofValue name.toValue = .ok name :=
  ofValue_eq_ok_iff.mpr rfl

theorem Attributes.ofList_entries (attributes : Attributes) :
    ofList attributes.entries = attributes := by
  rcases attributes with ⟨entries, hascending⟩
  rw [ofList, Attributes.mk.injEq]
  exact hascending.collectBy_eq_self (by intros; rfl)

theorem Attributes.ofValue_toValue (attributes : Attributes) :
    ofValue attributes.toValue = .ok attributes := by
  have hentries : attributes.toValue.asMap asText = .ok attributes.entries :=
    asMap_map fun _ _ => rfl
  rw [ofValue, hentries]
  exact congrArg Except.ok attributes.ofList_entries

theorem Metadata.ofValue_toValue (metadata : Metadata) :
    ofValue metadata.toValue = .ok metadata :=
  ofValue_eq_ok_iff.mpr ⟨trivial, ⟨_, rfl, rfl⟩, metadata.attributes.ofValue_toValue⟩

theorem Class.ofValue_toValue (cls : Class) : ofValue cls.toValue = .ok cls :=
  ofValue_eq_ok_iff.mpr ⟨trivial, ⟨_, rfl, cls.name.ofValue_toValue⟩,
    asList_map fun metadata _ => metadata.ofValue_toValue⟩

theorem Dependency.ofValue_toValue (dependency : Dependency) :
    ofValue dependency.toValue = .ok dependency :=
  ofValue_eq_ok_iff.mpr ⟨trivial, ⟨_, rfl, dependency.origin.ofValue_toValue⟩,
    ⟨_, rfl, dependency.target.ofValue_toValue⟩, _, rfl, rfl⟩

/-! ## Identifiers -/

theorem Identifier.ofParts_parts {id : Identifier} :
    ofParts id.parts = .ok id ↔ id ≠ .ignore := by
  rw [ofParts_eq_ok_iff, and_iff_left rfl]
  refine not_congr ⟨fun h => ?_, fun h => congrArg parts h⟩
  rcases id with ⟨parts, hproper⟩
  rw [ignore, Identifier.mk.injEq]
  exact h

theorem Identifier.ofValue_toValue {id : Identifier} (h : id ≠ .ignore) :
    ofValue id.toValue = .ok id :=
  ofValue_eq_ok_iff.mpr ⟨trivial, rfl, ofParts_parts.mpr h⟩

theorem Identifier.ne_ignore_of_ofValue {v : Value} {id : Identifier} (h : ofValue v = .ok id) :
    id ≠ .ignore :=
  ofParts_parts.mp (ofValue_eq_ok_iff.mp h).2.2

/-! ## Settings -/

theorem Settings.ofValue_toValue (surplus : Surplus) (settings : Settings) :
    ofValue surplus settings.toValue = .ok settings := by
  refine ofValue_eq_ok_iff.mpr ⟨trivial, ?_, ?_, ?_⟩
  · exact CycleSettings.ofValue_eq_ok_iff.mpr ⟨trivial, rfl⟩
  · exact AggregationSettings.ofValue_eq_ok_iff.mpr ⟨trivial, rfl, rfl⟩
  · exact LoggingSettings.ofValue_eq_ok_iff.mpr ⟨trivial, rfl⟩

/-! ## All types -/

/-- Class names, metadata, classes, dependencies, identifiers of modules and settings are decoded
from what they are encoded to, and whatever is decoded at all survives being encoded and decoded
again. Wherever a class name or an identifier is decoded, the value has the texts that make it up
and the check has accepted them, so neither the mark of ignored classes nor an empty part comes out
of any value. -/
theorem encoding_lossless :
    (Lossless (fun _ => True) ClassName.toValue ClassName.ofValue
      ∧ Lossless (fun _ => True) Metadata.toValue Metadata.ofValue
      ∧ Lossless (fun _ => True) Class.toValue Class.ofValue
      ∧ Lossless (fun _ => True) Dependency.toValue Dependency.ofValue
      ∧ Lossless (· ≠ .ignore) Identifier.toValue Identifier.ofValue
      ∧ Lossless (fun _ => True) Settings.toValue (Settings.ofValue .refused))
    ∧ (∀ v name, ClassName.ofValue v = .ok name →
        ∃ s, v = .text s ∧ ClassName.ofText s = .ok name)
    ∧ (∀ v cls, Class.ofValue v = .ok cls →
        ∃ s, v.field "id" 0 = some (.text s) ∧ ClassName.ofText s = .ok cls.name)
    ∧ (∀ v dependency, Dependency.ofValue v = .ok dependency →
        (∃ s, v.field "origin" 0 = some (.text s) ∧ ClassName.ofText s = .ok dependency.origin)
          ∧ ∃ s, v.field "target" 1 = some (.text s) ∧ ClassName.ofText s = .ok dependency.target)
    ∧ ∀ v id, Identifier.ofValue v = .ok id →
        (∃ parts, v.field "parts" 0 = some (.list (parts.map .text))
          ∧ Identifier.ofParts parts = .ok id)
        ∧ id ≠ .ignore ∧ "" ∉ id.parts := by
  have hname : ∀ {field : Option Value} {name : ClassName}, Has ClassName.ofValue field name →
      ∃ s, field = some (.text s) ∧ ClassName.ofText s = .ok name := by
    rintro _ name ⟨v, rfl, h⟩
    exact ⟨name.text, congrArg some (ClassName.ofValue_eq_ok_iff.mp h),
      ClassName.ofText_eq_ok_iff.mpr rfl⟩
  refine ⟨⟨.of_forall ClassName.ofValue_toValue, .of_forall Metadata.ofValue_toValue,
    .of_forall Class.ofValue_toValue, .of_forall Dependency.ofValue_toValue,
    .of_decode_encode (fun _ => Identifier.ofValue_toValue)
      fun _ _ => Identifier.ne_ignore_of_ofValue,
    .of_forall (Settings.ofValue_toValue .refused)⟩, ?_, ?_, ?_, ?_⟩
  · intro v name h
    obtain ⟨s, hs, hok⟩ := hname ⟨v, rfl, h⟩
    exact ⟨s, Option.some.inj hs, hok⟩
  · intro v cls h
    obtain ⟨-, hid, -⟩ := Class.ofValue_eq_ok_iff.mp h
    exact hname hid
  · intro v dependency h
    obtain ⟨-, horigin, htarget, -⟩ := Dependency.ofValue_eq_ok_iff.mp h
    exact ⟨hname horigin, hname htarget⟩
  · intro v id h
    obtain ⟨-, hfield, hparts⟩ := Identifier.ofValue_eq_ok_iff.mp h
    exact ⟨⟨id.parts, hfield, hparts⟩, Identifier.ne_ignore_of_ofValue h,
      fun hempty => id.proper _ hempty rfl⟩

end Archmap

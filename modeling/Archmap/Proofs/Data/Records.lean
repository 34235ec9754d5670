import Archmap.Data.Classes

/-!
# What a record is decoded from

A record is decoded from a map by the names of its fields or from a list by their positions. Either
way a field is a value that is there or not (`Value.field`), and a decoder takes it the same way: a
field that must be there is read (`Has`), and one that may be left out is read or has its default
(`HasOr`). So each record has one law, which says what its value has in each field if decoding
succeeds and that decoding succeeds on every value that is like this. Records whose fields are of the
same kinds have theirs from one law (`optionalField_eq_ok_iff`, `requiredThenOptional_eq_ok_iff`).

Keys that name no field do not occur in these laws, nor does the order in which fields are looked at,
which decides only which fault is found first.
-/

namespace Archmap

variable {α β γ : Type} {a : α} {o : Option α} {v : Value} {name key : String}
  {decode : Value → Decoded α}

/-! ## Steps of a decoder -/

namespace Decoded

theorem bind_eq_ok_iff {x : Decoded α} {f : α → Decoded β} {b : β} :
    (x >>= f) = .ok b ↔ ∃ a, x = .ok a ∧ f a = .ok b := by
  cases x with
  | error e => simp [bind, Except.bind]
  | ok a => simp [bind, Except.bind]

/-- Of two steps neither of which waits for the other, either may come first. -/
theorem bind_comm_eq_ok_iff {x : Decoded α} {y : Decoded β} {f : α → β → Decoded γ} {c : γ} :
    (x >>= fun a => y >>= fun b => f a b) = .ok c ↔
      (y >>= fun b => x >>= fun a => f a b) = .ok c := by
  simp only [bind_eq_ok_iff]
  constructor
  · rintro ⟨a, ha, b, hb, h⟩
    exact ⟨b, hb, a, ha, h⟩
  · rintro ⟨b, hb, a, ha, h⟩
    exact ⟨a, ha, b, hb, h⟩

theorem pure_eq_ok_iff {a b : α} : (pure a : Decoded α) = .ok b ↔ a = b := by
  simp [pure, Except.pure]

theorem map_eq_ok_iff {x : Decoded α} {f : α → β} {b : β} :
    Except.map f x = .ok b ↔ ∃ a, x = .ok a ∧ f a = b := by
  cases x <;> simp [Except.map]

theorem below_eq_ok_iff {x : Decoded α} : x.below key = .ok a ↔ x = .ok a := by
  cases x <;> simp [below]

theorem fail_ne_ok {defect : Defect} : (fail defect : Decoded α) ≠ .ok a := by
  simp [fail]

end Decoded

open Decoded

/-! ## Plain values -/

namespace Value

theorem asText_eq_ok_iff {s : String} : v.asText = .ok s ↔ v = .text s := by
  cases v <;> simp [asText, fail]

theorem elements_map {encode : α → Value} {xs : List α} (h : ∀ x ∈ xs, decode (encode x) = .ok x)
    (position : Nat) : elements decode position (xs.map encode) = .ok xs := by
  induction xs generalizing position with
  | nil => rfl
  | cons x xs ih =>
      obtain ⟨hx, hrest⟩ := List.forall_mem_cons.mp h
      rw [List.map_cons, elements, hx, ih hrest]
      rfl

theorem asList_map {encode : α → Value} {xs : List α} (h : ∀ x ∈ xs, decode (encode x) = .ok x) :
    asList decode (.list (xs.map encode)) = .ok xs :=
  elements_map h 0

theorem elements_text {values : List Value} {parts : List String} {position : Nat}
    (h : elements asText position values = .ok parts) : values = parts.map .text := by
  induction values generalizing parts position with
  | nil =>
      cases h
      rfl
  | cons v values ih =>
      rw [elements] at h
      obtain ⟨part, hpart, h⟩ := bind_eq_ok_iff.mp h
      obtain ⟨rest, hrest, h⟩ := bind_eq_ok_iff.mp h
      cases pure_eq_ok_iff.mp h
      rw [List.map_cons, asText_eq_ok_iff.mp (below_eq_ok_iff.mp hpart), ih hrest]

theorem asList_text_eq_ok_iff {parts : List String} :
    asList asText v = .ok parts ↔ v = .list (parts.map .text) := by
  constructor
  · intro h
    cases v with
    | list values => exact congrArg Value.list (elements_text h)
    | _ => exact absurd h fail_ne_ok
  · rintro rfl
    exact asList_map fun part _ => rfl

theorem asMap_map {encode : α → Value} {entries : List (String × α)}
    (h : ∀ entry ∈ entries, decode (encode entry.2) = .ok entry.2) :
    asMap decode (.map (entries.map fun entry => (entry.1, encode entry.2))) = .ok entries := by
  rw [asMap]
  induction entries with
  | nil => rfl
  | cons entry entries ih =>
      obtain ⟨hentry, hrest⟩ := List.forall_mem_cons.mp h
      rw [List.map_cons, entryValues, hentry, ih hrest]
      rfl

/-! ## Fields -/

/-- What a value has in the field of a record with this name and position. -/
def field (name : String) (position : Nat) : Value → Option Value
  | .map entries => entries.lookup name
  | .list values => values[position]?
  | _ => none

/-- The value is a map, or a list that is not too long for a record with so many fields. -/
def IsRecord (surplus : Surplus) (fields : Nat) : Value → Prop
  | .map _ => True
  | .list values => surplus = .refused → values.length ≤ fields
  | _ => False

/-- The field is there and is decoded to `a`. -/
def Has (decode : Value → Decoded α) (field : Option Value) (a : α) : Prop :=
  ∃ v, field = some v ∧ decode v = .ok a

/-- The field is there and is decoded to `a`, or it is not there and `a` is the default. -/
def HasOr (decode : Value → Decoded α) (default : α) (field : Option Value) (a : α) : Prop :=
  match field with
  | some v => decode v = .ok a
  | none => a = default

/-- A field that may be left out, taken as it is found. -/
theorem hasOr_iff {default : α} {field : Option Value} :
    HasOr decode default field a ↔
      ∃ o, Option.Rel (fun v a => decode v = .ok a) field o ∧ o.getD default = a := by
  constructor
  · intro h
    cases field with
    | none => exact ⟨none, .none, h.symm⟩
    | some v => exact ⟨some a, .some h, rfl⟩
  · rintro ⟨o, hrel, rfl⟩
    cases hrel with
    | none => rfl
    | some h => exact h

/-- A field of a record that may be left out as a whole. -/
theorem HasOr.bind {ofRecord : Value → Decoded β} {default record : β} {get : β → α}
    {part : Option Value} {read : Value → Option Value} (h : HasOr ofRecord default part record)
    (hlaw : ∀ v, ofRecord v = .ok record → HasOr decode (get default) (read v) (get record)) :
    HasOr decode (get default) (part.bind read) (get record) := by
  cases part with
  | none => exact congrArg get h
  | some v => exact hlaw v h

theorem has_iff {field : Option Value} :
    Has decode field a ↔ Option.Rel (fun v a => decode v = .ok a) field (some a) := by
  constructor
  · rintro ⟨v, rfl, h⟩
    exact .some h
  · intro h
    cases h with
    | some h => exact ⟨_, rfl, h⟩

theorem found_eq_ok_iff {found : Option Value} (key : String) :
    (found.elim (.ok none) fun v => ((decode v).below key).map some : Decoded (Option α)) = .ok o ↔
      Option.Rel (fun v a => decode v = .ok a) found o := by
  cases found with
  | none =>
      constructor
      · rintro ⟨⟩
        exact .none
      · rintro ⟨⟩
        rfl
  | some v =>
      constructor
      · intro h
        obtain ⟨a, ha, rfl⟩ := map_eq_ok_iff.mp h
        exact .some (below_eq_ok_iff.mp ha)
      · intro h
        cases h with
        | some h => exact map_eq_ok_iff.mpr ⟨_, below_eq_ok_iff.mpr h, rfl⟩

theorem field?_eq_ok_iff {entries : List (String × Value)} :
    field? entries name decode = .ok o ↔
      Option.Rel (fun v a => decode v = .ok a) (entries.lookup name) o := by
  rw [field?, ← found_eq_ok_iff name]
  cases entries.lookup name <;> rfl

theorem element?_eq_ok_iff {values : List Value} {position : Nat} :
    element? values position decode = .ok o ↔
      Option.Rel (fun v a => decode v = .ok a) values[position]? o := by
  rw [element?, ← found_eq_ok_iff (toString position)]
  cases values[position]? <;> rfl

theorem required_eq_ok_iff : required name o = .ok a ↔ o = some a := by
  cases o <;> simp [required, fail]

theorem element_eq_ok_iff {values : List Value} {position fields : Nat} {record : String} :
    element values position record fields decode = .ok a ↔ Has decode values[position]? a := by
  rw [element, bind_eq_ok_iff, has_iff, ← element?_eq_ok_iff]
  constructor
  · rintro ⟨o, ho, h⟩
    cases o with
    | none => exact absurd h fail_ne_ok
    | some a' => rw [ho, pure_eq_ok_iff.mp h]
  · intro h
    exact ⟨some a, h, rfl⟩

theorem finished_eq_ok_iff {surplus : Surplus} {values : List Value} {fields : Nat} {u : Unit} :
    finished surplus values fields = .ok u ↔ IsRecord surplus fields (.list values) := by
  rw [finished, IsRecord]
  split
  · rename_i h
    exact iff_of_false fail_ne_ok fun hle => absurd (hle h.1) (by omega)
  · rename_i h
    exact iff_of_true rfl fun hrefused => Nat.le_of_not_lt fun hlt => h ⟨hrefused, hlt⟩

/-! ## Laws of records -/

section Laws

variable {ρ : Type} {ofValue : Value → Decoded ρ} {record : ρ} {surplus : Surplus}
  {name' : String} {decode' : Value → Decoded β} {get : ρ → α} {get' : ρ → β}

/-- Records with one field, which may be left out. -/
theorem optionalField_eq_ok_iff (type : String) (mk : α → ρ) {default : α}
    (hget : ∀ a, get (mk a) = a) (hmk : mk (get record) = record)
    (h : ∀ v, ofValue v = match v with
      | .map entries => do
        let a ← field? entries name decode
        return mk (a.getD default)
      | .list values => do
        let a ← element? values 0 decode
        finished surplus values 1
        return mk (a.getD default)
      | v => .fail (.wrongSort v (.record type))) :
    ofValue v = .ok record ↔
      v.IsRecord surplus 1 ∧ HasOr decode default (v.field name 0) (get record) := by
  have hmade : ∀ a, mk a = record ↔ a = get record :=
    fun a => ⟨fun h => h ▸ (hget a).symm, fun h => h ▸ hmk⟩
  rw [h, hasOr_iff]
  cases v with
  | map entries =>
      simp only [bind_eq_ok_iff, field?_eq_ok_iff, pure_eq_ok_iff, hmade]
      exact (iff_of_eq (true_and _)).symm
  | list values =>
      simp only [bind_eq_ok_iff, element?_eq_ok_iff, finished_eq_ok_iff, exists_const,
        pure_eq_ok_iff, hmade]
      constructor
      · rintro ⟨o, ho, hrecord, hdefault⟩
        exact ⟨hrecord, o, ho, hdefault⟩
      · rintro ⟨hrecord, o, ho, hdefault⟩
        exact ⟨o, ho, hrecord, hdefault⟩
  | _ => exact iff_of_false fail_ne_ok fun h => h.1

/-- Records with two fields, the second of which may be left out. -/
theorem requiredThenOptional_eq_ok_iff (type : String) (mk : α → β → ρ) {default : β}
    (hget : ∀ a b, get (mk a b) = a ∧ get' (mk a b) = b)
    (hmk : mk (get record) (get' record) = record)
    (h : ∀ v, ofValue v = .ok record ↔ (match v with
      | .map entries => do
        let a ← field? entries name decode
        let b ← field? entries name' decode'
        return mk (← required name a) (b.getD default)
      | .list values => do
        let a ← element values 0 type 2 decode
        let b ← element? values 1 decode'
        finished surplus values 2
        return mk a (b.getD default)
      | v => .fail (.wrongSort v (.record type)) : Decoded ρ) = .ok record) :
    ofValue v = .ok record ↔ v.IsRecord surplus 2 ∧ Has decode (v.field name 0) (get record)
      ∧ HasOr decode' default (v.field name' 1) (get' record) := by
  have hmade : ∀ a b, mk a b = record ↔ a = get record ∧ b = get' record := by
    intro a b
    refine ⟨?_, fun h => h.1 ▸ h.2 ▸ hmk⟩
    rintro rfl
    exact ⟨(hget a b).1.symm, (hget a b).2.symm⟩
  rw [h, has_iff, hasOr_iff]
  cases v with
  | map entries =>
      simp only [bind_eq_ok_iff, field?_eq_ok_iff, required_eq_ok_iff, pure_eq_ok_iff, hmade]
      constructor
      · rintro ⟨_, ha, o, ho, a, rfl, rfl, hdefault⟩
        exact ⟨trivial, ha, o, ho, hdefault⟩
      · rintro ⟨-, ha, o, ho, hdefault⟩
        exact ⟨_, ha, o, ho, _, rfl, rfl, hdefault⟩
  | list values =>
      simp only [bind_eq_ok_iff, element_eq_ok_iff, has_iff, element?_eq_ok_iff,
        finished_eq_ok_iff, exists_const, pure_eq_ok_iff, hmade]
      constructor
      · rintro ⟨a, ha, o, ho, hrecord, rfl, hdefault⟩
        exact ⟨hrecord, ha, o, ho, hdefault⟩
      · rintro ⟨hrecord, ha, o, ho, hdefault⟩
        exact ⟨_, ha, o, ho, hrecord, rfl, hdefault⟩
  | _ => exact iff_of_false fail_ne_ok fun h => h.1

end Laws

end Value

open Value

/-! ## Records -/

theorem Metadata.ofValue_eq_ok_iff {metadata : Metadata} : Metadata.ofValue v = .ok metadata ↔
    v.IsRecord .refused 2 ∧ Has asText (v.field "kind" 0) metadata.kind
      ∧ HasOr Attributes.ofValue .empty (v.field "attributes" 1) metadata.attributes := by
  refine requiredThenOptional_eq_ok_iff "Metadata" Metadata.mk (fun _ _ => ⟨rfl, rfl⟩) rfl ?_
  intro v
  cases v with
  | map entries => exact bind_comm_eq_ok_iff
  | _ => exact Iff.rfl

theorem Class.ofValue_eq_ok_iff {cls : Class} : Class.ofValue v = .ok cls ↔
    v.IsRecord .refused 2 ∧ Has ClassName.ofValue (v.field "id" 0) cls.name
      ∧ HasOr (asList Metadata.ofValue) [] (v.field "metadata" 1) cls.metadata :=
  requiredThenOptional_eq_ok_iff "Class" Class.mk (fun _ _ => ⟨rfl, rfl⟩) rfl fun _ => Iff.rfl

theorem Dependency.ofValue_eq_ok_iff {dependency : Dependency} :
    Dependency.ofValue v = .ok dependency ↔
      v.IsRecord .refused 3 ∧ Has ClassName.ofValue (v.field "origin" 0) dependency.origin
        ∧ Has ClassName.ofValue (v.field "target" 1) dependency.target
        ∧ Has asText (v.field "description" 2) dependency.description := by
  simp only [has_iff]
  cases v with
  | map entries =>
      simp only [ofValue, bind_eq_ok_iff, field?_eq_ok_iff, required_eq_ok_iff, pure_eq_ok_iff]
      constructor
      · rintro ⟨_, hdescription, _, horigin, _, htarget, origin, rfl, target, rfl, description, rfl,
          rfl⟩
        exact ⟨trivial, horigin, htarget, hdescription⟩
      · rintro ⟨-, horigin, htarget, hdescription⟩
        exact ⟨_, hdescription, _, horigin, _, htarget, _, rfl, _, rfl, _, rfl, rfl⟩
  | list values =>
      simp only [ofValue, bind_eq_ok_iff, element_eq_ok_iff, has_iff, finished_eq_ok_iff,
        exists_const, pure_eq_ok_iff]
      constructor
      · rintro ⟨origin, horigin, target, htarget, description, hdescription, hrecord, rfl⟩
        exact ⟨hrecord, horigin, htarget, hdescription⟩
      · rintro ⟨hrecord, horigin, htarget, hdescription⟩
        exact ⟨_, horigin, _, htarget, _, hdescription, hrecord, rfl⟩
  | _ => exact iff_of_false fail_ne_ok fun h => h.1

theorem Identifier.partsOfValue_eq_ok_iff {parts : List String} :
    Identifier.partsOfValue v = .ok parts ↔
      v.IsRecord .refused 1 ∧ Has (asList asText) (v.field "parts" 0) parts := by
  cases v with
  | map entries =>
      simp only [partsOfValue, bind_eq_ok_iff, field?_eq_ok_iff, required_eq_ok_iff, has_iff]
      constructor
      · rintro ⟨_, hparts, rfl⟩
        exact ⟨trivial, hparts⟩
      · rintro ⟨-, hparts⟩
        exact ⟨_, hparts, rfl⟩
  | list values =>
      simp only [partsOfValue, bind_eq_ok_iff, element_eq_ok_iff, finished_eq_ok_iff, exists_const,
        pure_eq_ok_iff]
      constructor
      · rintro ⟨parts, hparts, hrecord, rfl⟩
        exact ⟨hrecord, hparts⟩
      · rintro ⟨hrecord, hparts⟩
        exact ⟨_, hparts, hrecord, rfl⟩
  | _ => exact iff_of_false fail_ne_ok fun h => h.1

/-! ## Names and identifiers -/

theorem ClassName.ofText_eq_ok_iff {s : String} {name : ClassName} :
    ClassName.ofText s = .ok name ↔ name.text = s := by
  constructor
  · intro h
    rw [ofText] at h
    split at h
    · cases h
    · split at h
      · cases h
        rfl
      · cases h
  · rintro rfl
    have hne : name.text ≠ "" := by
      intro hempty
      have hproper := name.proper [] (by rw [hempty]; simp [splitDots])
      exact hproper rfl
    rw [ofText, if_neg hne, dif_pos name.proper]

theorem ClassName.ofValue_eq_ok_iff {name : ClassName} :
    ClassName.ofValue v = .ok name ↔ v = .text name.text := by
  rw [ofValue, bind_eq_ok_iff]
  constructor
  · rintro ⟨s, hs, h⟩
    split at h
    · rename_i name' hname
      cases pure_eq_ok_iff.mp h
      rw [asText_eq_ok_iff.mp hs, ofText_eq_ok_iff.mp hname]
    · exact absurd h fail_ne_ok
  · rintro rfl
    refine ⟨name.text, rfl, ?_⟩
    rw [ofText_eq_ok_iff.mpr rfl]
    rfl

theorem Identifier.ofValue_eq_ok_iff {id : Identifier} : Identifier.ofValue v = .ok id ↔
    v.IsRecord .refused 1 ∧ v.field "parts" 0 = some (.list (id.parts.map .text))
      ∧ Identifier.ofParts id.parts = .ok id := by
  have hparts : Identifier.partsOfValue v = .ok id.parts ↔
      v.IsRecord .refused 1 ∧ v.field "parts" 0 = some (.list (id.parts.map .text)) := by
    rw [partsOfValue_eq_ok_iff, Has]
    simp only [asList_text_eq_ok_iff, exists_eq_right]
  rw [← and_assoc, ← hparts, ofValue, bind_eq_ok_iff]
  constructor
  · rintro ⟨parts, hfound, h⟩
    split at h
    · rename_i id' hid
      cases pure_eq_ok_iff.mp h
      obtain ⟨-, rfl⟩ := ofParts_eq_ok_iff.mp hid
      exact ⟨hfound, hid⟩
    · exact absurd h fail_ne_ok
  · rintro ⟨hfound, hid⟩
    refine ⟨id.parts, hfound, ?_⟩
    rw [hid]
    rfl

end Archmap

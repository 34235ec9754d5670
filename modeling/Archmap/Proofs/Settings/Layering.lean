import Archmap.Proofs.Settings.Levels
import Archmap.Proofs.Settings.Sections
import Archmap.Proofs.Settings.Variables
import Archmap.Proofs.Toml.Keys
import Archmap.Settings.Loading

/-!
# Settings by layers

Each setting that is loaded has the value that the environment gives it, or else the value of the
document, or else its default (`load_by_layers`). So two loads that are given the same for one
setting agree on it, whatever else they are given.

A setting is given by the last variable that names its key in its section, or by the document under
these two keys. A document may also give a section as a list of its settings, but a list cannot be
joined with a map: as soon as a variable names anything in this section the list is gone, and the
settings in it have their defaults (`listed_section_lost`).

A section as it is decoded has gone through both layers. Key by key this is told by the laws of
overlays (`Setting.decode_layered`), for which it matters that a document has no key twice and that
no setting is decoded from a map.
-/

namespace Archmap

open Decoded Value

/-- What a document sets. One that is missing sets nothing. -/
def Settings.document? : Option String → Option Value
  | none => some (.map [])
  | some document => Toml.read? document

/-! ## The settings one by one -/

/-- The name of a setting. -/
inductive Setting where
  | maxNumberToDetect
  | parallel
  | parallelThreshold
  | level
  deriving DecidableEq

namespace Setting

/-- What a setting is. -/
def Kind : Setting → Type
  | maxNumberToDetect | parallelThreshold => UInt64
  | parallel => Bool
  | level => String

/-- The key of the section that a setting belongs to. -/
def heading : Setting → String
  | maxNumberToDetect => "cycles"
  | parallel | parallelThreshold => "aggregation"
  | level => "logging"

/-- The key of a setting in its section. -/
def key : Setting → String
  | maxNumberToDetect => "max_number_to_detect"
  | parallel => "parallel"
  | parallelThreshold => "parallel_threshold"
  | level => "level"

/-- The position of a setting among those of its section. -/
def position : Setting → Nat
  | maxNumberToDetect | parallel | level => 0
  | parallelThreshold => 1

def decode : (setting : Setting) → Value → Decoded setting.Kind
  | maxNumberToDetect | parallelThreshold => asCount
  | parallel => asBoolean
  | level => asText

def get : (setting : Setting) → Settings → setting.Kind
  | maxNumberToDetect, settings => settings.cycles.maxNumberToDetect
  | parallel, settings => settings.aggregation.parallel
  | parallelThreshold, settings => settings.aggregation.parallelThreshold
  | level, settings => settings.logging.level

/-- What a document sets. The elements of a section that is a list count only as long as the
environment leaves the section alone. -/
def inDocument? (setting : Setting) (environment : List (String × String)) (document : Value) :
    Option Value :=
  (document.under? setting.heading).bind fun part =>
    if Environment.touches environment setting.heading then part.under? setting.key
    else part.field setting.key setting.position

/-- What the environment sets, or else the document. -/
def given? (setting : Setting) (document : Option String) (environment : List (String × String)) :
    Option Value :=
  (Environment.setting? environment setting.heading setting.key).or
    ((Settings.document? document).bind (setting.inDocument? environment))

/-- The document gives the section of a setting as a list. -/
def IsListed (setting : Setting) (document : Option String) : Prop :=
  ∃ layer values, Settings.document? document = some layer
    ∧ layer.under? setting.heading = some (.list values)

/-- A variable with another name changes nothing, unless the section is given as a list. -/
theorem given?_append_cons {setting : Setting} {document : Option String} {name text : String}
    (front back : List (String × String)) (hlisted : ¬setting.IsListed document)
    (hother : Environment.keys? name ≠ some [setting.heading, setting.key]) :
    setting.given? document (front ++ (name, text) :: back)
      = setting.given? document (front ++ back) := by
  rw [given?, given?, Environment.setting?_append_cons front back hother]
  congr 1
  cases hlayer : Settings.document? document with
  | none => rfl
  | some layer =>
      rw [Option.bind_some, Option.bind_some, inDocument?, inDocument?]
      refine Option.bind_congr fun part hpart => ?_
      have hfield : part.field setting.key setting.position = part.under? setting.key := by
        cases part with
        | list values => exact absurd ⟨layer, values, hlayer, hpart⟩ hlisted
        | _ => rfl
      rw [hfield, ite_self, ite_self]

/-- The default as a value. -/
def seed : Setting → Value
  | maxNumberToDetect => .unsigned ({} : Settings).cycles.maxNumberToDetect
  | parallel => .boolean ({} : Settings).aggregation.parallel
  | parallelThreshold => .unsigned ({} : Settings).aggregation.parallelThreshold
  | level => .text ({} : Settings).logging.level

variable {setting : Setting} {v : Value}

theorem decode_seed (setting : Setting) : setting.decode setting.seed = .ok (setting.get {}) := by
  cases setting <;> rfl

theorem isMap_seed (setting : Setting) : setting.seed.isMap = false := by
  cases setting <;> rfl

theorem decode_of_isMap (h : v.isMap = true) {a : setting.Kind} : setting.decode v ≠ .ok a := by
  obtain ⟨entries, rfl⟩ := isMap_iff.mp h
  cases setting <;> exact fail_ne_ok

/-- The layer of the defaults has all settings. -/
theorem exists_defaults : ∃ defaults, ({} : Settings).toValue = .map defaults
    ∧ ∀ setting : Setting, ∃ fields, defaults.lookup setting.heading = some (.map fields)
      ∧ fields.lookup setting.key = some setting.seed := by
  refine ⟨_, rfl, fun setting => ?_⟩
  cases setting <;> exact ⟨_, rfl, rfl⟩

/-! ## A section in layers -/

/-- A setting that is left out is as good as one that has its default. -/
theorem hasOr_iff_getD {o : Option Value} {a : setting.Kind} :
    HasOr setting.decode (setting.get {}) o a ↔ setting.decode (o.getD setting.seed) = .ok a := by
  cases o with
  | some v => exact Iff.rfl
  | none =>
      rw [Option.getD_none, decode_seed, Except.ok.injEq]
      exact eq_comm

section Layers

variable {fields entries : List (String × Value)} {part o found : Option Value}

theorem overlay_seed : setting.seed.overlay v = v := by
  cases hmap : v.isMap with
  | false => exact overlay_of_isMap_eq_false hmap
  | true =>
      obtain ⟨entries, rfl⟩ := isMap_iff.mp hmap
      exact overlay_map_of_isMap_eq_false setting.isMap_seed

theorem getD_merge_seed :
    (Option.merge overlay (some setting.seed) o).getD setting.seed = o.getD setting.seed := by
  cases o with
  | none => rfl
  | some v => exact overlay_seed

/-- What a document has for a setting counts, however it is read, and else the default. -/
theorem getD_documented {read : Value → Option Value}
    (hread : ∀ entries, read (.map entries) = entries.lookup setting.key)
    (hseed : fields.lookup setting.key = some setting.seed)
    (hordered : ∀ v, part = some v → v.Ordered) :
    ((Option.merge overlay (some (.map fields)) part).bind read).getD setting.seed
      = (part.bind read).getD setting.seed := by
  cases part with
  | none =>
      rw [Option.merge_none_right, Option.bind_some, hread, hseed]
      rfl
  | some v =>
      cases hmap : v.isMap with
      | false =>
          show ((some ((Value.map fields).overlay v)).bind read).getD _ = _
          rw [overlay_of_isMap_eq_false hmap]
      | true =>
          obtain ⟨entries, rfl⟩ := isMap_iff.mp hmap
          have hdistinct := (hordered _ rfl).ascending.nodup_keys
          rw [bind_merge_overlay_map hread hdistinct, Option.bind_some, under?_map, hseed,
            getD_merge_seed, Option.bind_some, hread]

/-- What is decoded for a setting when the environment has been laid over its section. -/
theorem decode_layered {environment : List (String × String)}
    (hseed : fields.lookup setting.key = some setting.seed)
    (hordered : ∀ v, part = some v → v.Ordered)
    (hsection : Environment.Section environment setting.heading found) {a : setting.Kind}
    (h : setting.decode (((Option.merge overlay (Option.merge overlay (some (.map fields)) part)
      found).bind (·.field setting.key setting.position)).getD setting.seed) = .ok a) :
    setting.decode (((Environment.setting? environment setting.heading setting.key).or
      (part.bind fun part =>
        if Environment.touches environment setting.heading then part.under? setting.key
        else part.field setting.key setting.position)).getD setting.seed) = .ok a := by
  cases hsection with
  | untouched huntouched =>
      rw [Option.merge_none_right, getD_documented (fun _ => rfl) hseed hordered] at h
      rw [Environment.setting?_eq_none huntouched, Option.none_or, huntouched]
      exact h
  | touched htouched hascending hsets =>
      rename_i entries
      rw [bind_merge_overlay_map (fun _ => rfl) hascending.nodup_keys] at h
      rw [htouched]
      -- a map is not decoded, so it is the last variable that counts where there is one
      have hscalar : ∀ {v}, entries.lookup setting.key = some v →
          v.isMap = false ∧ setting.decode v = .ok a := by
        intro v hv
        obtain ⟨w, hw, hmap, heq⟩ := exists_merge_overlay
          ((Option.merge overlay (some (.map fields)) part).bind (·.under? setting.key)) v
        rw [hv, hw, Option.getD_some] at h
        cases hvmap : v.isMap with
        | true => exact absurd h (decode_of_isMap (hmap.trans hvmap))
        | false => exact ⟨rfl, heq hvmap ▸ h⟩
      rcases hsets setting.key with hset | ⟨v, hv, hmap⟩
      · cases hfound : entries.lookup setting.key with
        | none =>
            rw [hfound, Option.merge_none_right, getD_documented (fun _ => rfl) hseed hordered] at h
            rw [← hset, hfound, Option.none_or]
            exact h
        | some v =>
            rw [← hset, hfound]
            exact (hscalar hfound).2
      · exact absurd hmap (Bool.eq_false_iff.mp (hscalar hv).1)

end Layers

/-- What is decoded for a setting as one of all settings. -/
theorem decode_of_ofValue {entries : List (String × Value)} {settings : Settings}
    (h : Settings.ofValue .ignored (.map entries) = .ok settings) (setting : Setting) :
    HasOr setting.decode (setting.get {})
      ((entries.lookup setting.heading).bind (·.field setting.key setting.position))
      (setting.get settings) := by
  obtain ⟨-, hcycles, haggregation, hlogging⟩ := Settings.ofValue_eq_ok_iff.mp h
  cases setting with
  | maxNumberToDetect =>
      exact hcycles.bind fun _ hpart => (CycleSettings.ofValue_eq_ok_iff.mp hpart).2
  | parallel =>
      exact haggregation.bind fun _ hpart => (AggregationSettings.ofValue_eq_ok_iff.mp hpart).2.1
  | parallelThreshold =>
      exact haggregation.bind fun _ hpart => (AggregationSettings.ofValue_eq_ok_iff.mp hpart).2.2
  | level => exact hlogging.bind fun _ hpart => (LoggingSettings.ofValue_eq_ok_iff.mp hpart).2

end Setting

namespace Settings

variable {document : Option String} {environment : List (String × String)} {settings : Settings}

theorem overlay_nothing : ({} : Settings).toValue.overlay (.map []) = ({} : Settings).toValue := by
  rw [toValue, overlay_map_map, overlayEntries]

theorem validate_eq_ok_iff_fault? : settings.validate = .ok () ↔ settings.fault? = none := by
  rw [validate]
  cases settings.fault? <;> simp

theorem ofLayers_eq_ok_iff {layers : Value} : ofLayers layers = .ok settings ↔
    ofValue .ignored layers = .ok settings ∧ settings.validate = .ok () := by
  rw [ofLayers]
  cases ofValue .ignored layers with
  | error fault => simp
  | ok found =>
      cases hfault : found.fault? with
      | some fault =>
          simp only [hfault, reduceCtorEq, false_iff, not_and]
          rintro ⟨rfl⟩
          simp [validate_eq_ok_iff_fault?, hfault]
      | none =>
          simp only [hfault, Except.ok.injEq]
          constructor
          · rintro rfl
            exact ⟨rfl, validate_eq_ok_iff_fault?.mpr hfault⟩
          · exact fun h => h.1

theorem documented_eq_ok_iff {below : Value} : documented document = .ok below ↔
    ∃ layer, document? document = some layer ∧ ({} : Settings).toValue.overlay layer = below := by
  cases document with
  | none => simp [documented, document?, overlay_nothing]
  | some text =>
      rw [documented, document?]
      cases Toml.read? text <;> simp

theorem exists_entries_of_document? {layer : Value} (h : document? document = some layer) :
    ∃ entries, layer = .map entries ∧ (Value.map entries).Ordered := by
  cases document with
  | none =>
      cases h
      exact ⟨[], rfl, .map .nil fun _ h => by cases h⟩
  | some text => exact Toml.ordered_of_read? h

/-- When settings are loaded, and from which layers they are decoded. -/
theorem load_eq_ok_iff : load document environment = .ok settings ↔
    ∃ layer, document? document = some layer
      ∧ ofValue .ignored ((({} : Settings).toValue.overlay layer).overlay
          (Environment.layer environment)) = .ok settings
      ∧ settings.validate = .ok () := by
  simp only [← ofLayers_eq_ok_iff]
  rw [load]
  cases hbelow : documented document with
  | error e =>
      refine iff_of_false (by simp) ?_
      rintro ⟨layer, hlayer, -⟩
      rw [documented_eq_ok_iff.mpr ⟨layer, hlayer, rfl⟩] at hbelow
      cases hbelow
  | ok below =>
      obtain ⟨layer, hlayer, rfl⟩ := documented_eq_ok_iff.mp hbelow
      simp [hlayer]

/-- A document alone is loaded like one in an environment without variables. -/
theorem ofDocument_eq_load (text : String) : ofDocument text = load (some text) [] := by
  rw [ofDocument, load]
  cases hbelow : documented (some text) with
  | error e => rfl
  | ok below =>
      obtain ⟨layer, hlayer, rfl⟩ := documented_eq_ok_iff.mp hbelow
      obtain ⟨entries, rfl, -⟩ := exists_entries_of_document? hlayer
      dsimp only
      rw [toValue, overlay_map_map, Environment.layer_nil, overlay_map_map, overlayEntries]

end Settings

variable {document : Option String} {environment : List (String × String)} {settings : Settings}

/-- No variable names a section of the settings as a whole. -/
def Environment.NamesKeys (environment : List (String × String)) : Prop :=
  ∀ entry ∈ environment, ∀ setting : Setting, keys? entry.1 ≠ some [setting.heading]

/-- Each setting has what it is given, or its default. -/
theorem Settings.hasOr_given? (h : load document environment = .ok settings)
    (hkeys : Environment.NamesKeys environment) (setting : Setting) :
    HasOr setting.decode (setting.get {}) (setting.given? document environment)
      (setting.get settings) := by
  obtain ⟨layer, hlayer, hvalue, -⟩ := load_eq_ok_iff.mp h
  obtain ⟨entries, rfl, hordered⟩ := exists_entries_of_document? hlayer
  obtain ⟨above, habove⟩ := Environment.exists_laid environment
  obtain ⟨defaults, hdefaults, hfields⟩ := Setting.exists_defaults
  obtain ⟨fields, hpart, hseed⟩ := hfields setting
  rw [hdefaults, habove.layer_eq, overlay_map_map, overlay_map_map] at hvalue
  have hlayered := Setting.decode_of_ofValue hvalue setting
  rw [lookup_overlayEntries habove.ascending.nodup_keys,
    lookup_overlayEntries hordered.ascending.nodup_keys, hpart, Setting.hasOr_iff_getD] at hlayered
  rw [Setting.hasOr_iff_getD, Setting.given?, hlayer]
  exact Setting.decode_layered hseed (fun _ => hordered.of_lookup)
    (habove.sections _ fun entry hentry => hkeys entry hentry setting) hlayered

theorem one_le_of_ne_zero {n : UInt64} (h : n ≠ 0) : 1 ≤ n := by
  rw [UInt64.le_iff_toNat_le]
  exact Nat.one_le_iff_ne_zero.mpr fun hzero => h (UInt64.toNat_inj.mp hzero)

/-- Settings that have been loaded are valid, and each of them has what the environment sets or else
the document, or its default if neither sets it. What is given to a setting decides it alone, and
only where the document lists a section it matters which other variables there are. Without any
variables, settings are what the document makes them. -/
theorem load_by_layers (h : Settings.load document environment = .ok settings)
    (hkeys : Environment.NamesKeys environment) :
    (settings.validate = .ok () ∧ 1 ≤ settings.cycles.maxNumberToDetect
      ∧ 1 ≤ settings.aggregation.parallelThreshold
      ∧ lowercase settings.logging.level ∈ Settings.levels)
    ∧ (∀ setting : Setting, HasOr setting.decode (setting.get {})
        (setting.given? document environment) (setting.get settings))
    ∧ (∀ document' environment' settings', Settings.load document' environment' = .ok settings' →
        Environment.NamesKeys environment' → ∀ setting : Setting,
        setting.given? document' environment' = setting.given? document environment →
        setting.get settings' = setting.get settings)
    ∧ (∀ setting : Setting, ¬setting.IsListed document → ∀ front name text back,
        Environment.keys? name ≠ some [setting.heading, setting.key] →
        setting.given? document (front ++ (name, text) :: back)
          = setting.given? document (front ++ back))
    ∧ ∀ text, Settings.ofDocument text = Settings.load (some text) [] := by
  refine ⟨?_, Settings.hasOr_given? h hkeys, ?_, ?_, Settings.ofDocument_eq_load⟩
  · obtain ⟨-, -, -, hvalid⟩ := Settings.load_eq_ok_iff.mp h
    obtain ⟨hmax, hthreshold, hlevel⟩ := (validate_eq_ok_iff settings).mp hvalid
    exact ⟨hvalid, one_le_of_ne_zero hmax, one_le_of_ne_zero hthreshold, hlevel⟩
  · intro document' environment' settings' h' hkeys' setting hgiven
    have hthere := Settings.hasOr_given? h' hkeys' setting
    rw [hgiven, Setting.hasOr_iff_getD] at hthere
    have hhere := Setting.hasOr_iff_getD.mp (Settings.hasOr_given? h hkeys setting)
    exact Except.ok.inj (hthere.symm.trans hhere)
  · intro setting hlisted front name text back hother
    exact Setting.given?_append_cons front back hlisted hother

/-- One setting from the environment, one from the document and two defaults. -/
theorem load_by_layers_mixed : ∃ settings,
    Settings.load (some "aggregation.parallel_threshold = 9") [("AGGREGATION__PARALLEL", "false")]
        = .ok settings
      ∧ Environment.NamesKeys [("AGGREGATION__PARALLEL", "false")]
      ∧ settings = { aggregation := { parallel := false, parallelThreshold := 9 } }
      ∧ settings.validate = .ok ()
      ∧ ∀ setting : Setting, HasOr setting.decode (setting.get {})
          (setting.given? (some "aggregation.parallel_threshold = 9")
            [("AGGREGATION__PARALLEL", "false")]) (setting.get settings) := by
  have hloaded : (Settings.load (some "aggregation.parallel_threshold = 9")
      [("AGGREGATION__PARALLEL", "false")]).toOption
      = some { aggregation := { parallel := false, parallelThreshold := 9 } } := by
    decide +kernel
  have hkeys : Environment.NamesKeys [("AGGREGATION__PARALLEL", "false")] := by
    intro entry hentry setting
    cases List.mem_singleton.mp hentry
    cases setting <;> decide +kernel
  cases h : Settings.load (some "aggregation.parallel_threshold = 9")
      [("AGGREGATION__PARALLEL", "false")] with
  | error e =>
      rw [h] at hloaded
      cases hloaded
  | ok settings =>
      rw [h] at hloaded
      obtain ⟨hvalid, hsettings, -⟩ := load_by_layers h hkeys
      exact ⟨settings, rfl, hkeys, Option.some.inj hloaded, hvalid.1, hsettings⟩

/-- A list of settings in a document counts for nothing once a variable names one of them. -/
theorem listed_section_lost :
    Environment.keys? "AGGREGATION__PARALLEL" = some ["aggregation", "parallel"]
    ∧ (Settings.load (some "aggregation = [true, 9]") []).toOption.map
        (·.aggregation.parallelThreshold) = some 9
    ∧ (Settings.load (some "aggregation = [true, 9]")
        [("AGGREGATION__PARALLEL", "false")]).toOption.map
        (·.aggregation.parallelThreshold) = some 64 := by
  decide +kernel

end Archmap

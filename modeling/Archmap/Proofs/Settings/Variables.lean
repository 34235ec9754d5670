import Archmap.Proofs.Data.Overlay
import Archmap.Proofs.Namespace.Containment
import Archmap.Settings.Environment

/-!
# What the environment sets

The variables of the environment are laid over each other, the later ones over the earlier ones. So
what they set for a section is told by the list of variables. If no variable names the section or
anything in it, the section is not there. Otherwise it is a map as long as no variable names the
section itself, and under each of its keys lies the value of the last variable that names this key,
or a map where others name keys below it (`Section`, `exists_laid`). A map is of no use where a
setting is expected.
-/

namespace Archmap.Environment

open Value

variable {environment : List (String × String)} {heading key name text : String}
  {keys more : List String} {v : Value}

/-! ## Variables -/

/-- Some variable names the section or something in it. -/
def touches (environment : List (String × String)) (heading : String) : Bool :=
  environment.any fun entry => (keys? entry.1).bind List.head? == some heading

/-- What a variable, given by its name and its text, sets for a key of a section. -/
def sets? (heading key : String) (entry : String × String) : Option Value :=
  if keys? entry.1 = some [heading, key] then some (valueOf entry.2) else none

/-- The value of the last variable that names a key of a section. -/
def setting? (environment : List (String × String)) (heading key : String) : Option Value :=
  (environment.filterMap (sets? heading key)).getLast?

theorem touches_concat : touches (environment ++ [(name, text)]) heading
    = (touches environment heading || (keys? name).bind List.head? == some heading) := by
  rw [touches, List.any_append, List.any_cons, List.any_nil, Bool.or_false]
  rfl

theorem setting?_concat : setting? (environment ++ [(name, text)]) heading key
    = if keys? name = some [heading, key] then some (valueOf text)
      else setting? environment heading key := by
  by_cases hnames : keys? name = some [heading, key]
  · have hsets : sets? heading key (name, text) = some (valueOf text) := if_pos hnames
    rw [if_pos hnames, setting?, List.filterMap_append, List.filterMap_cons_some hsets,
      List.filterMap_nil, List.getLast?_concat]
  · have hsets : sets? heading key (name, text) = none := if_neg hnames
    rw [if_neg hnames, setting?, List.filterMap_append, List.filterMap_cons_none hsets,
      List.filterMap_nil, List.append_nil]
    rfl

/-- Where a variable that names something else stands among the others makes no difference. -/
theorem setting?_append_cons (front back : List (String × String))
    (hother : keys? name ≠ some [heading, key]) :
    setting? (front ++ (name, text) :: back) heading key
      = setting? (front ++ back) heading key := by
  have hsets : sets? heading key (name, text) = none := if_neg hother
  unfold setting?
  rw [List.filterMap_append, List.filterMap_cons_none hsets, ← List.filterMap_append]

theorem setting?_eq_none (h : touches environment heading = false) :
    setting? environment heading key = none := by
  have hnone : ∀ entry ∈ environment, sets? heading key entry = none := by
    intro entry hentry
    refine if_neg fun hnames => ?_
    have huntouched := List.any_eq_false.mp h entry hentry
    simp [hnames] at huntouched
  rw [setting?, List.filterMap_eq_nil_iff.mpr hnone, List.getLast?_nil]

/-- A variable names at least one key. -/
theorem keys?_ne_nil : keys? name ≠ some [] := by
  intro h
  rw [keys?] at h
  split at h
  · cases h
  · exact splitDots_ne_nil _ (List.map_eq_nil_iff.mp (Option.some.inj h))

/-! ## The layer of all variables -/

theorem layer_nil : layer [] = .map [] := rfl

theorem layer_concat_of_none (h : keys? name = none) :
    layer (environment ++ [(name, text)]) = layer environment := by
  rw [layer, List.foldl_concat, ← layer]
  simp only [h]

theorem layer_concat_of_some (h : keys? name = some keys) :
    layer (environment ++ [(name, text)])
      = (layer environment).overlay (nest keys (valueOf text)) := by
  rw [layer, List.foldl_concat, ← layer]
  simp only [h]

/-- Under each key of a section lies what the environment sets, or a map. -/
def Sets (environment : List (String × String)) (heading : String)
    (entries : List (String × Value)) : Prop :=
  ∀ key, entries.lookup key = setting? environment heading key
    ∨ ∃ v, entries.lookup key = some v ∧ v.isMap = true

/-- What the layer of the environment has for a section that no variable names as a whole. -/
inductive Section (environment : List (String × String)) (heading : String) : Option Value → Prop
  | untouched (h : touches environment heading = false) : Section environment heading none
  | touched {entries : List (String × Value)} (h : touches environment heading = true)
      (hascending : Ascending Prod.fst entries) (hsets : Sets environment heading entries) :
      Section environment heading (some (.map entries))

variable {entries : List (String × Value)} {o : Option Value}

/-- A variable that names something else changes nothing in a section. -/
theorem Section.concat_of_ne (hother : (keys? name).bind List.head? ≠ some heading)
    (h : Section environment heading o) : Section (environment ++ [(name, text)]) heading o := by
  have htouches : touches (environment ++ [(name, text)]) heading = touches environment heading := by
    rw [touches_concat, beq_eq_false_iff_ne.mpr hother, Bool.or_false]
  cases h with
  | untouched h => exact .untouched (htouches.trans h)
  | touched h hascending hsets =>
      refine .touched (htouches.trans h) hascending fun k => ?_
      rw [setting?_concat, if_neg fun hnames => hother (by rw [hnames]; rfl)]
      exact hsets k

/-- A variable that names a key, or something below a key, sets this key alone. -/
theorem Sets.concat (hkeys : keys? name = some (heading :: key :: more))
    (h : Sets environment heading entries) :
    Sets (environment ++ [(name, text)]) heading
      (overlayEntry entries (key, nest more (valueOf text))) := by
  intro k
  rw [lookup_overlayEntry, setting?_concat, hkeys]
  by_cases hk : k = key
  · rw [if_pos hk]
    subst hk
    obtain ⟨w, hw, hmap, hscalar⟩ :=
      exists_merge_overlay (entries.lookup k) (nest more (valueOf text))
    rw [hw]
    cases hnest : (nest more (valueOf text)).isMap with
    | true => exact .inr ⟨w, rfl, hmap.trans hnest⟩
    | false =>
        have hmore : more = [] := by
          cases more with
          | nil => rfl
          | cons => cases hnest
        subst hmore
        exact .inl (by rw [if_pos rfl, hscalar hnest]; rfl)
  · rw [if_neg hk, if_neg fun hnames => hk ?_]
    · exact h k
    · cases hnames
      rfl

/-- A variable that names something in a section leaves a map there. -/
theorem Section.concat_of_eq (hkeys : keys? name = some (heading :: key :: more))
    (h : Section environment heading o) :
    Section (environment ++ [(name, text)]) heading
      (Option.merge overlay o (some (nest (key :: more) (valueOf text)))) := by
  have htouches : touches (environment ++ [(name, text)]) heading = true := by
    rw [touches_concat, hkeys]
    simp
  cases h with
  | untouched h =>
      have hsets : Sets environment heading [] := fun k => .inl (setting?_eq_none h).symm
      exact .touched htouches (List.pairwise_singleton _ _) (hsets.concat hkeys)
  | touched _ hascending hsets =>
      show Section _ _ (some (overlay (.map _) (.map [(key, nest more (valueOf text))])))
      rw [overlay_map_singleton]
      exact .touched htouches (ascending_overlayEntry hascending) (hsets.concat hkeys)

/-- The variables set these entries together. -/
structure Laid (environment : List (String × String)) (entries : List (String × Value)) : Prop where
  layer_eq : layer environment = .map entries
  ascending : Ascending Prod.fst entries
  sections : ∀ heading, (∀ entry ∈ environment, keys? entry.1 ≠ some [heading]) →
    Section environment heading (entries.lookup heading)

theorem Laid.nil : Laid [] [] :=
  ⟨layer_nil, .nil, fun _ _ => .untouched rfl⟩

/-- A variable whose name stands for no keys sets nothing. -/
theorem Laid.concat_of_none (h : Laid environment entries) (hkeys : keys? name = none) :
    Laid (environment ++ [(name, text)]) entries := by
  refine ⟨(layer_concat_of_none hkeys).trans h.layer_eq, h.ascending, fun heading hwhole => ?_⟩
  refine (h.sections heading fun entry hentry => ?_).concat_of_ne ?_
  · exact hwhole entry (List.mem_append_left _ hentry)
  · rw [hkeys]
    simp

/-- Any other variable sets one entry of the layer, and of a section in it. -/
theorem Laid.concat_of_some (h : Laid environment entries) (hkeys : keys? name = some (key :: more)) :
    Laid (environment ++ [(name, text)])
      (overlayEntry entries (key, nest more (valueOf text))) := by
  refine ⟨?_, ascending_overlayEntry h.ascending, fun heading hwhole => ?_⟩
  · rw [layer_concat_of_some hkeys, h.layer_eq]
    exact overlay_map_singleton
  · have hsection := h.sections heading fun entry hentry =>
      hwhole entry (List.mem_append_left _ hentry)
    rw [lookup_overlayEntry]
    by_cases hheading : heading = key
    · subst hheading
      rw [if_pos rfl]
      cases more with
      | nil => exact absurd hkeys (hwhole (name, text) List.mem_append_cons_self)
      | cons key more => exact hsection.concat_of_eq hkeys
    · rw [if_neg hheading]
      refine hsection.concat_of_ne ?_
      rw [hkeys]
      exact fun heq => hheading (Option.some.inj heq).symm

theorem exists_laid (environment : List (String × String)) : ∃ entries, Laid environment entries := by
  induction environment using List.reverseRecOn with
  | nil => exact ⟨[], .nil⟩
  | append_singleton environment entry ih =>
      obtain ⟨entries, h⟩ := ih
      cases hkeys : keys? entry.1 with
      | none => exact ⟨_, h.concat_of_none hkeys⟩
      | some keys =>
          cases keys with
          | nil => exact absurd hkeys keys?_ne_nil
          | cons key more => exact ⟨_, h.concat_of_some hkeys⟩

end Archmap.Environment

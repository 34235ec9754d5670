import Archmap.Proofs.Ascending
import Archmap.Data.Value

/-!
# Laying values over each other

A map that is laid over another is joined with it key by key: under a key that both have, one value
is laid over the other, and under any other key lies what one of them has (`lookup_overlayEntries`).
The map above must not have a key twice, while nothing is asked of the one below. A value that is not
a map replaces what is below it, and a map replaces what is not one.
-/

namespace Archmap.Value

variable {below above v : Value} {under entries : List (String × Value)} {key : String}

def isMap : Value → Bool
  | .map _ => true
  | _ => false

/-- What a map has under a key. -/
def under? (key : String) : Value → Option Value
  | .map entries => entries.lookup key
  | _ => none

@[simp]
theorem isMap_map : (Value.map entries).isMap = true := rfl

@[simp]
theorem under?_map : (Value.map entries).under? key = entries.lookup key := rfl

theorem isMap_iff : v.isMap = true ↔ ∃ entries, v = .map entries := by
  cases v <;> simp [isMap]

theorem under?_of_isMap_eq_false (h : v.isMap = false) : v.under? key = none := by
  cases v with
  | map => cases h
  | _ => rfl

/-! ## Values -/

theorem overlay_map_map :
    (Value.map under).overlay (.map entries) = .map (overlayEntries under entries) := by
  rw [overlay]

theorem overlay_of_isMap_eq_false (h : above.isMap = false) : below.overlay above = above := by
  cases above with
  | map => cases h
  | _ => rw [overlay]; simp

theorem overlay_map_of_isMap_eq_false (h : below.isMap = false) :
    below.overlay (.map entries) = .map entries := by
  cases below with
  | map => cases h
  | _ => rw [overlay]; simp

theorem isMap_overlay : (below.overlay above).isMap = above.isMap := by
  cases habove : above.isMap with
  | false => rw [overlay_of_isMap_eq_false habove, habove]
  | true =>
      obtain ⟨entries, rfl⟩ := isMap_iff.mp habove
      cases hbelow : below.isMap with
      | false => rw [overlay_map_of_isMap_eq_false hbelow, isMap_map]
      | true =>
          obtain ⟨under, rfl⟩ := isMap_iff.mp hbelow
          rw [overlay_map_map, isMap_map]

/-- What lies on top where something has been laid, over anything or nothing. -/
theorem exists_merge_overlay (o : Option Value) (v : Value) :
    ∃ w, Option.merge overlay o (some v) = some w ∧ w.isMap = v.isMap
      ∧ (v.isMap = false → w = v) := by
  cases o with
  | none => exact ⟨v, rfl, rfl, fun _ => rfl⟩
  | some below => exact ⟨below.overlay v, rfl, isMap_overlay, overlay_of_isMap_eq_false⟩

/-! ## Entries -/

theorem overlayEntry_eq_put : overlayEntry under (key, v)
    = put under key ((under.lookup key).elim v (·.overlay v)) := by
  rw [overlayEntry]
  cases under.lookup key <;> rfl

theorem lookup_overlayEntry {l : String} : (overlayEntry under (key, v)).lookup l
    = if l = key then Option.merge overlay (under.lookup l) (some v) else under.lookup l := by
  rw [overlayEntry_eq_put, put, lookup_insertBy_replaceValue]
  by_cases hl : l = key
  · subst hl
    rw [beq_self_eq_true, if_pos rfl, if_pos rfl]
    cases under.lookup l <;> rfl
  · rw [beq_eq_false_iff_ne.mpr hl, if_neg hl]
    rfl

/-- What lies under a key when one map has been laid over another. -/
theorem lookup_overlayEntries (hdistinct : (entries.map Prod.fst).Nodup) :
    (overlayEntries under entries).lookup key
      = Option.merge overlay (under.lookup key) (entries.lookup key) := by
  induction entries generalizing under with
  | nil => rw [overlayEntries, List.lookup_nil, Option.merge_none_right]
  | cons entry rest ih =>
      obtain ⟨hfresh, hrest⟩ := List.nodup_cons.mp hdistinct
      rw [overlayEntries, ih hrest, lookup_overlayEntry, List.lookup_cons]
      by_cases hkey : key = entry.1
      · -- nothing more is laid over the entry's own key
        have hnone : rest.lookup key = none := by
          refine List.lookup_eq_none_iff.mpr fun other hother => ?_
          rw [bne_iff_ne, hkey]
          exact fun heq => hfresh (heq ▸ List.mem_map_of_mem hother)
        rw [hnone, if_pos hkey, Option.merge_none_right, hkey, beq_self_eq_true]
      · rw [if_neg hkey, beq_eq_false_iff_ne.mpr hkey]

theorem ascending_overlayEntry (h : Ascending Prod.fst under) :
    Ascending Prod.fst (overlayEntry under (key, v)) := by
  rw [overlayEntry_eq_put]
  exact ascending_insertBy (by intros; rfl) h

/-- What lies under a key where a map has been laid, over anything or nothing. -/
theorem bind_merge_overlay_map {read : Value → Option Value}
    (hread : ∀ entries, read (.map entries) = entries.lookup key)
    (hdistinct : (entries.map Prod.fst).Nodup) (o : Option Value) :
    (Option.merge overlay o (some (.map entries))).bind read
      = Option.merge overlay (o.bind (·.under? key)) (entries.lookup key) := by
  cases o with
  | none => rw [Option.merge_none_left, Option.bind_some, hread, Option.bind_none,
      Option.merge_none_left]
  | some below =>
      rw [Option.bind_some]
      show read (below.overlay (.map entries)) = _
      cases hmap : below.isMap with
      | false =>
          rw [overlay_map_of_isMap_eq_false hmap, hread, under?_of_isMap_eq_false hmap,
            Option.merge_none_left]
      | true =>
          obtain ⟨under, rfl⟩ := isMap_iff.mp hmap
          rw [overlay_map_map, hread, lookup_overlayEntries hdistinct, under?_map]

/-- One entry laid over a map. -/
theorem overlay_map_singleton :
    (Value.map under).overlay (.map [(key, v)]) = .map (overlayEntry under (key, v)) := by
  rw [overlay_map_map, overlayEntries, overlayEntries]

end Archmap.Value

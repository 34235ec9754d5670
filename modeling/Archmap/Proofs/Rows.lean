import Mathlib.Data.List.Nodup
import Archmap.Proofs.Ascending

/-!
# Laying out a list in rows

A list is laid out in one pass, by putting each element at the end of the row that it belongs to. A
row is known by its position in a table that has all rows from the start (`rowsBy`), or by a key
under which it is added with its first element (`bucketsBy`). Either way it holds in the end the
elements that belong to it, in the order of the list (`rowsBy_eq`, `rowUnder_bucketsBy`).

A list whose elements have keys of their own can also stay as it is beside a table of their positions
(`positionsBy`). A look-up in the table finds what a search through the list finds
(`find?_eq_positionsBy`).
-/

namespace Archmap

/-! ## Rows by position -/

/-- The rows of a table into which the elements of a list are put one after the other, each at the
end of the row with its position. -/
def rowsBy {α : Type} (position : α → Nat) (count : Nat) (xs : List α) : List (List α) :=
  xs.foldl (fun rows x => rows.modify (position x) (· ++ [x])) (List.replicate count [])

theorem rowsBy_concat {α : Type} {position : α → Nat} {count : Nat} {xs : List α} {x : α} :
    rowsBy position count (xs ++ [x])
      = (rowsBy position count xs).modify (position x) (· ++ [x]) := by
  rw [rowsBy, List.foldl_concat, rowsBy]

/-- A row holds the elements with its position, in their order. -/
theorem rowsBy_eq {α : Type} (position : α → Nat) (count : Nat) (xs : List α) :
    rowsBy position count xs = (List.range count).map fun i => xs.filter (position · = i) := by
  induction xs using List.reverseRecOn with
  | nil => simp [rowsBy, List.map_const']
  | append_singleton xs x ih =>
      rw [rowsBy_concat, ih]
      refine List.ext_getElem (by simp) fun i hi _ => ?_
      rw [List.getElem_modify]
      by_cases hx : position x = i <;> simp [hx, List.filter_append]

/-- Where the positions are those of keys in a list without repetition, a row holds the elements
with its key. Elements whose key is not listed are in no row. -/
theorem rowsBy_idxOf {α κ : Type} [DecidableEq κ] {key : α → κ} {keys : List κ} {xs : List α}
    (hnodup : keys.Nodup) : rowsBy (fun x => keys.idxOf (key x)) keys.length xs
      = keys.map fun k => xs.filter (key · = k) := by
  rw [rowsBy_eq]
  refine List.ext_getElem (by simp) fun i hi hi' => ?_
  rw [List.length_map] at hi'
  simp only [List.getElem_map, List.getElem_range]
  refine List.filter_congr fun x _ => decide_eq_decide.mpr ?_
  constructor
  · rintro rfl
    rw [List.getElem_idxOf]
  · intro hkey
    rw [hkey, hnodup.idxOf_getElem i hi']

/-! ## Rows by key -/

section Buckets

variable {α κ : Type}

/-- Puts the elements of one row behind those of another. -/
def appendRow (row more : κ × List α) : κ × List α := (row.1, row.2 ++ more.2)

/-- Rows with one key merge into one row. -/
theorem foldl_appendRow {key : α → κ} {k : κ} {xs : List α} (hkeys : ∀ x ∈ xs, key x = k) :
    (xs.map fun x => (key x, [x])).foldl
        (fun found row => some (mergeInto appendRow found row)) none
      = if xs = [] then none else some (k, xs) := by
  induction xs using List.reverseRecOn with
  | nil => rfl
  | append_singleton xs x ih =>
      have hx : key x = k := hkeys x (by simp)
      rw [List.map_append, List.map_singleton, List.foldl_concat,
        ih fun y hy => hkeys y (by simp [hy])]
      by_cases hnone : xs = [] <;> simp [hnone, hx, mergeInto, appendRow]

variable [LT κ] [DecidableLT κ] [DecidableEq κ]

/-- Rows with their keys, into which the elements of a list are put one after the other. -/
def bucketsBy (key : α → κ) (xs : List α) : List (κ × List α) :=
  collectBy Prod.fst appendRow (xs.map fun x => (key x, [x]))

/-- The row with a key; there is nothing under a key that no element has. -/
def rowUnder (rows : List (κ × List α)) (k : κ) : List α :=
  (rows.find? (·.1 = k)).elim [] Prod.snd

variable [Std.Irrefl fun x y : κ => x < y] [Std.Trichotomous fun x y : κ => x < y]
  [Trans (fun x y : κ => x < y) (fun x y => x < y) (fun x y => x < y)]

/-- Under a key lie the elements with that key, in their order. -/
theorem rowUnder_bucketsBy (key : α → κ) (xs : List α) (k : κ) :
    rowUnder (bucketsBy key xs) k = xs.filter (key · = k) := by
  have hkeys : ∀ x ∈ xs.filter (key · = k), key x = k := fun x hx =>
    of_decide_eq_true (List.mem_filter.mp hx).2
  have hfind : (bucketsBy key xs).find? (fun row => row.1 = k)
      = if xs.filter (key · = k) = [] then none else some (k, xs.filter (key · = k)) := by
    rw [bucketsBy, find?_collectBy (by intros; rfl), List.filter_map]
    exact foldl_appendRow hkeys
  rw [rowUnder, hfind]
  split
  · rename_i hnone
    exact hnone.symm
  · rfl

end Buckets

/-! ## Positions by key -/

section Positions

variable {α κ : Type} [DecidableEq κ] {key : α → κ} {xs : List α} {x : α} {k : κ}

/-- A table from keys to positions, into which the elements of a list are entered one after the
other. -/
def positionsBy (key : α → κ) (xs : List α) : κ → Option Nat :=
  xs.zipIdx.foldl (fun table entry => Function.update table (key entry.1) (some entry.2))
    fun _ => none

theorem positionsBy_concat : positionsBy key (xs ++ [x])
    = Function.update (positionsBy key xs) (key x) (some xs.length) := by
  rw [positionsBy, List.zipIdx_append, List.zipIdx_singleton, List.foldl_concat, Nat.zero_add]
  rfl

/-- Where no two elements share a key, each is entered once and its entry stays. -/
theorem positionsBy_eq (hnodup : (xs.map key).Nodup) (k : κ) :
    positionsBy key xs k = xs.findIdx? (key · = k) := by
  induction xs using List.reverseRecOn with
  | nil => rfl
  | append_singleton xs x ih =>
      rw [List.map_append, List.nodup_append] at hnodup
      obtain ⟨hfront, -, hapart⟩ := hnodup
      rw [positionsBy_concat, Function.update_apply, ih hfront, List.findIdx?_append]
      by_cases hk : k = key x
      · have hnone : xs.findIdx? (key · = k) = none := by
          refine List.findIdx?_eq_none_iff.mpr fun y hy => decide_eq_false fun hy' => ?_
          exact hapart (key y) (List.mem_map_of_mem hy) (key x) (by simp) (hy'.trans hk)
        rw [if_pos hk, hnone]
        simp [hk]
      · rw [if_neg hk]
        simp [Ne.symm hk]

theorem find?_eq_positionsBy (hnodup : (xs.map key).Nodup) (k : κ) :
    xs.find? (key · = k) = (positionsBy key xs k).bind (xs[·]?) := by
  rw [positionsBy_eq hnodup, List.find?_eq_bind_findIdx?_getElem?]

end Positions

end Archmap

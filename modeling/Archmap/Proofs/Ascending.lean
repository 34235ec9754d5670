import Mathlib.Data.List.Induction
import Mathlib.Data.List.Nodup
import Archmap.Ascending

/-!
# Looking up in ascending lists

A list that ascends by a key is a finite map from keys. What an insertion does to it is said by the
lookup alone (`find?_insertBy`): the key inserted is mapped to the new element or to its merge with
the old one, and all other keys are mapped as before. And two such lists with
the same members are equal (`ascending_ext`).

What is collected from a list is therefore told by the list: under a key lies what the elements with
that key merge to (`find?_collectBy`), and where keys are unique just the elements are collected
(`mem_collectBy_iff`). An entry that takes the place of an older one with its key changes what is
looked up under this key alone, whatever the list (`lookup_insertBy_replaceValue`).

The order only has to be trichotomous, so that two keys of which none is less are the same key. To
look up a key that no two elements share, no order is needed at all (`find?_key_eq_some`).
-/

namespace Archmap

variable {α κ : Type} [LT κ] {key : α → κ} {merge : α → α → α} {a x y : α} {xs ys : List α} {k : κ}

/-- What picks one element of a list without repetition finds it once. -/
theorem filter_eq_singleton [DecidableEq α] {p : α → Bool} (hnodup : xs.Nodup) (ha : a ∈ xs)
    (h : ∀ x ∈ xs, p x = true ↔ x = a) : xs.filter p = [a] := by
  have hsame : ∀ x ∈ xs, p x = (x == a) := by
    intro x hx
    rw [Bool.eq_iff_iff, h x hx, beq_iff_eq]
  rw [List.filter_congr hsame, List.filter_beq, List.count_eq_one_of_mem hnodup ha]
  rfl

section Keys

variable {β : Type} [DecidableEq β] {f : α → β} {b : β}

/-- Where no two elements share a key, what is found under a key is the one element that has it. -/
theorem find?_key_eq_some (hnodup : (xs.map f).Nodup) :
    xs.find? (fun y => f y = b) = some x ↔ x ∈ xs ∧ f x = b := by
  constructor
  · intro hfind
    have hkey := List.find?_some hfind
    exact ⟨List.mem_of_find?_eq_some hfind, of_decide_eq_true hkey⟩
  · rintro ⟨hx, rfl⟩
    cases hfind : xs.find? fun y => f y = f x with
    | none => exact absurd (decide_eq_true rfl) (List.find?_eq_none.mp hfind x hx)
    | some y =>
        have hkey := List.find?_some hfind
        rw [List.inj_on_of_nodup_map hnodup (List.mem_of_find?_eq_some hfind) hx
          (of_decide_eq_true hkey)]

/-- Nothing else has the key of what is found under it. -/
theorem filter_key_eq (hnodup : (xs.map f).Nodup) (b : β) :
    xs.filter (fun y => f y = b) = (xs.find? fun y => f y = b).toList := by
  classical
  cases hfind : xs.find? fun y => f y = b with
  | none => exact List.filter_eq_nil_iff.mpr (List.find?_eq_none.mp hfind)
  | some x =>
      obtain ⟨hx, hkey⟩ := (find?_key_eq_some hnodup).mp hfind
      refine filter_eq_singleton (List.Nodup.of_map f hnodup) hx fun y hy => ?_
      rw [decide_eq_true_eq, ← hkey]
      exact ⟨List.inj_on_of_nodup_map hnodup hy hx, congrArg f⟩

end Keys

section Unique

variable [irreflexive : Std.Irrefl fun x y : κ => x < y]

theorem Ascending.nodup_keys (h : Ascending key xs) : (xs.map key).Nodup := by
  refine List.pairwise_map.mpr (h.imp fun hless heq => ?_)
  rw [heq] at hless
  exact irreflexive.irrefl _ hless

theorem Ascending.nodup (h : Ascending key xs) : xs.Nodup :=
  List.Nodup.of_map key h.nodup_keys

/-- No two elements have the same key. -/
theorem Ascending.eq_of_key_eq (h : Ascending key xs) (hx : x ∈ xs) (hy : y ∈ xs)
    (hkey : key x = key y) : x = y := by
  induction xs with
  | nil => cases hx
  | cons b bs ih =>
      obtain ⟨hbelow, hrest⟩ := List.pairwise_cons.mp h
      have hother : ∀ z ∈ bs, key b ≠ key z := by
        intro z hz heq
        exact irreflexive.irrefl (key z) (heq ▸ hbelow z hz)
      rcases List.mem_cons.mp hx with hxb | hx
      · rcases List.mem_cons.mp hy with hyb | hy
        · rw [hxb, hyb]
        · exact absurd (hxb ▸ hkey) (hother y hy)
      · rcases List.mem_cons.mp hy with hyb | hy
        · exact absurd (hyb ▸ hkey.symm) (hother x hx)
        · exact ih hrest hx hy

theorem Ascending.find?_eq_some [DecidableEq κ] (h : Ascending key xs) :
    xs.find? (fun y => key y = k) = some x ↔ x ∈ xs ∧ key x = k :=
  find?_key_eq_some h.nodup_keys

/-- Two lists that ascend by a key and have the same members are equal. -/
theorem ascending_ext [order : Trans (fun x y : κ => x < y) (fun x y => x < y) (fun x y => x < y)]
    (h : Ascending key xs) (h' : Ascending key ys) (hmem : ∀ x, x ∈ xs ↔ x ∈ ys) : xs = ys := by
  have hperm : xs.Perm ys := (List.perm_ext_iff_of_nodup h.nodup h'.nodup).mpr hmem
  exact hperm.eq_of_pairwise (fun x y _ _ hless hmore =>
    absurd (order.trans hless hmore) (irreflexive.irrefl _)) h h'

/-- What has a lesser key stands in front. -/
theorem Ascending.mem_front
    [order : Trans (fun x y : κ => x < y) (fun x y => x < y) (fun x y => x < y)] {front back : List α}
    (h : Ascending key (front ++ x :: back)) (hy : y ∈ front ++ x :: back)
    (hless : key y < key x) : y ∈ front := by
  obtain ⟨-, hback, -⟩ := List.pairwise_append.mp h
  rcases List.mem_append.mp hy with hy | hy
  · exact hy
  · rcases List.mem_cons.mp hy with rfl | hy
    · exact absurd hless (irreflexive.irrefl _)
    · have hmore := (List.pairwise_cons.mp hback).1 y hy
      exact absurd (order.trans hless hmore) (irreflexive.irrefl _)

/-- What is found first in an ascending list has the least key among all that could be found. -/
theorem Ascending.not_less_of_find?
    [order : Trans (fun x y : κ => x < y) (fun x y => x < y) (fun x y => x < y)]
    (h : Ascending key xs) {p : α → Bool} (hfind : xs.find? p = some x) (hy : y ∈ xs)
    (hp : p y = true) : ¬key y < key x := by
  obtain ⟨-, front, back, rfl, hfront⟩ := List.find?_eq_some_iff_append.mp hfind
  intro hless
  have hnot := hfront y (h.mem_front hy hless)
  simp [hp] at hnot

/-- An element of an ascending list stands behind those with lesser keys, and behind no others. -/
theorem Ascending.countP_of_getElem? [DecidableLT κ]
    [order : Trans (fun x y : κ => x < y) (fun x y => x < y) (fun x y => x < y)]
    (h : Ascending key xs) {i : Nat} (hx : xs[i]? = some x) :
    xs.countP (fun y => key y < key x) = i := by
  induction xs generalizing i with
  | nil => cases hx
  | cons b bs ih =>
      obtain ⟨hbelow, hrest⟩ := List.pairwise_cons.mp h
      cases i with
      | zero =>
          cases hx
          refine List.countP_eq_zero.mpr fun y hy => ?_
          rw [decide_eq_true_eq]
          intro hless
          rcases List.mem_cons.mp hy with rfl | hy
          · exact irreflexive.irrefl _ hless
          · exact irreflexive.irrefl _ (order.trans hless (hbelow y hy))
      | succ i =>
          rw [List.getElem?_cons_succ] at hx
          have hless : key b < key x := hbelow x (List.mem_of_getElem? hx)
          rw [List.countP_cons, ih hrest hx, if_pos (decide_eq_true hless)]

theorem Ascending.getElem?_eq_some [DecidableLT κ]
    [order : Trans (fun x y : κ => x < y) (fun x y => x < y) (fun x y => x < y)]
    (h : Ascending key xs) {i : Nat} :
    xs[i]? = some x ↔ x ∈ xs ∧ xs.countP (fun y => key y < key x) = i := by
  constructor
  · intro hx
    exact ⟨List.mem_of_getElem? hx, h.countP_of_getElem? hx⟩
  · rintro ⟨hmem, rfl⟩
    obtain ⟨j, hx⟩ := List.mem_iff_getElem?.mp hmem
    rwa [h.countP_of_getElem? hx]

end Unique

/-- The element that an insertion leaves at its key, where `found` is what was there before. -/
def mergeInto (merge : α → α → α) (found : Option α) (a : α) : α :=
  match found with
  | none => a
  | some old => merge old a

section Lookup

variable [DecidableLT κ] [DecidableEq κ] [irreflexive : Std.Irrefl fun x y : κ => x < y]
  [trichotomous : Std.Trichotomous fun x y : κ => x < y]
  [order : Trans (fun x y : κ => x < y) (fun x y => x < y) (fun x y => x < y)]

theorem find?_insertBy (hmerge : ∀ b, key (merge b a) = key b) (h : Ascending key xs) (k : κ) :
    (insertBy key merge a xs).find? (fun y => key y = k)
      = if key a = k then some (mergeInto merge (xs.find? fun y => key y = k) a)
        else xs.find? fun y => key y = k := by
  induction xs with
  | nil => by_cases hk : key a = k <;> simp [insertBy, mergeInto, hk]
  | cons b bs ih =>
      obtain ⟨hbelow, hrest⟩ := List.pairwise_cons.mp h
      simp only [insertBy]
      split
      · rename_i hless
        by_cases hk : key a = k
        · -- nothing behind has the new key
          have hnone : (b :: bs).find? (fun y => key y = k) = none := by
            refine List.find?_eq_none.mpr fun x hx => ?_
            rw [decide_eq_true_eq]
            intro hx'
            rcases List.mem_cons.mp hx with rfl | hx
            · exact irreflexive.irrefl k (by simpa only [hk, hx'] using hless)
            · have hmore := order.trans hless (hbelow x hx)
              exact irreflexive.irrefl k (by simpa only [hk, hx'] using hmore)
          simp [mergeInto, hnone, hk]
        · rw [List.find?_cons_of_neg (by simpa using hk), if_neg hk]
      · rename_i hless
        split
        · rename_i hmore
          by_cases hb : key b = k
          · have hk : key a ≠ k := by
              intro hk
              exact irreflexive.irrefl k (by simpa only [hb, hk] using hmore)
            rw [if_neg hk, List.find?_cons_of_pos (by simpa using hb),
              List.find?_cons_of_pos (by simpa using hb)]
          · rw [List.find?_cons_of_neg (by simpa using hb),
              List.find?_cons_of_neg (by simpa using hb), ih hrest]
        · rename_i hmore
          have heq : key a = key b := trichotomous.trichotomous _ _ hless hmore
          by_cases hb : key b = k
          · rw [if_pos (heq.trans hb), List.find?_cons_of_pos (by simpa [hmerge] using hb),
              List.find?_cons_of_pos (by simpa using hb)]
            rfl
          · rw [if_neg fun hk => hb (heq ▸ hk), List.find?_cons_of_neg (by simpa [hmerge] using hb),
              List.find?_cons_of_neg (by simpa using hb)]

omit [DecidableEq κ] irreflexive order in
/-- Collecting keys that are kept once collects just these keys. -/
theorem mem_insertBy_keepFirst {k l : κ} {ks : List κ} :
    l ∈ insertBy id keepFirst k ks ↔ l = k ∨ l ∈ ks := by
  induction ks with
  | nil => simp [insertBy]
  | cons k' ks ih =>
      simp only [insertBy, id_eq]
      split
      · exact List.mem_cons
      · rename_i hless
        split
        · rw [List.mem_cons, ih, List.mem_cons, or_left_comm]
        · rename_i hmore
          have heq : k = k' := trichotomous.trichotomous _ _ hless hmore
          simp [keepFirst, heq]

/-- Under a key lies what the elements with that key merge to, in their order. -/
theorem find?_collectBy (hmerge : ∀ a b, key (merge b a) = key b) (xs : List α) (k : κ) :
    (collectBy key merge xs).find? (fun y => key y = k)
      = (xs.filter fun y => key y = k).foldl
          (fun found a => some (mergeInto merge found a)) none := by
  induction xs using List.reverseRecOn with
  | nil => rfl
  | append_singleton xs a ih =>
      rw [collectBy, List.foldl_concat, ← collectBy,
        find?_insertBy (hmerge a) (ascending_collectBy hmerge xs), ih, List.filter_append]
      by_cases hk : key a = k
      · rw [if_pos hk, List.filter_cons_of_pos (by simpa using hk), List.filter_nil,
          List.foldl_concat]
      · rw [if_neg hk, List.filter_cons_of_neg (by simpa using hk), List.filter_nil,
          List.append_nil]

/-- Of the elements with one key the first is kept. -/
theorem mem_collectBy_keepFirst : x ∈ collectBy key keepFirst xs ↔
    xs.find? (fun y => key y = key x) = some x := by
  have hkept : ∀ (found : Option α) (ys : List α),
      ys.foldl (fun found a => some (mergeInto keepFirst found a)) found = found.or ys.head? := by
    intro found ys
    induction ys generalizing found with
    | nil => cases found <;> rfl
    | cons y ys ih => cases found <;> exact ih _
  rw [← (and_iff_left rfl : x ∈ collectBy key keepFirst xs ∧ key x = key x ↔ _),
    ← (ascending_collectBy (by intros; rfl) xs).find?_eq_some, find?_collectBy (by intros; rfl),
    hkept, Option.none_or, List.head?_filter]

/-- Where no two elements share a key, nothing is lost. -/
theorem mem_collectBy_iff (hdistinct : ∀ a ∈ xs, ∀ b ∈ xs, key a = key b → a = b) :
    x ∈ collectBy key keepFirst xs ↔ x ∈ xs := by
  rw [mem_collectBy_keepFirst]
  constructor
  · exact List.mem_of_find?_eq_some
  · intro hx
    cases hfind : xs.find? fun y => key y = key x with
    | none => exact absurd (decide_eq_true rfl) (List.find?_eq_none.mp hfind x hx)
    | some y =>
        have hkey := List.find?_some hfind
        rw [hdistinct y (List.mem_of_find?_eq_some hfind) x hx (of_decide_eq_true hkey)]

/-- Nothing changes when an ascending list is collected again. -/
theorem Ascending.collectBy_eq_self (h : Ascending key xs)
    (hmerge : ∀ a b, key (merge b a) = key b) : collectBy key merge xs = xs := by
  have hcollected : Ascending key (collectBy key merge xs) := ascending_collectBy hmerge xs
  refine ascending_ext hcollected h fun x => ?_
  have hfind : (collectBy key merge xs).find? (fun y => key y = key x)
      = xs.find? fun y => key y = key x := by
    rw [find?_collectBy hmerge, filter_key_eq h.nodup_keys]
    cases xs.find? fun y => key y = key x <;> rfl
  rw [← (and_iff_left rfl : x ∈ collectBy key merge xs ∧ key x = key x ↔ _),
    ← hcollected.find?_eq_some, hfind, h.find?_eq_some, and_iff_left rfl]

end Lookup

/-! ## Entries -/

section Entries

variable {ν : Type} {entries : List (κ × ν)} {entry : κ × ν} {l : κ} {v : ν}

/-- Putting an entry into any list at all changes what is looked up under its key and nothing else. -/
theorem lookup_insertBy_replaceValue [DecidableLT κ] [BEq κ] [LawfulBEq κ]
    [irreflexive : Std.Irrefl fun x y : κ => x < y]
    [trichotomous : Std.Trichotomous fun x y : κ => x < y] :
    (insertBy Prod.fst replaceValue (k, v) entries).lookup l
      = if l == k then some v else entries.lookup l := by
  induction entries with
  | nil => cases hl : l == k <;> simp [insertBy, List.lookup_cons, hl]
  | cons old rest ih =>
      simp only [insertBy]
      split
      · rw [List.lookup_cons]
        cases l == k <;> rfl
      · rename_i hless
        split
        · rename_i hmore
          rw [List.lookup_cons, List.lookup_cons, ih]
          cases hold : l == old.1 with
          | false => rfl
          | true =>
              have hne : l ≠ k := by
                rintro rfl
                rw [eq_of_beq hold] at hmore
                exact irreflexive.irrefl _ hmore
              rw [beq_eq_false_iff_ne.mpr hne]
              rfl
        · rename_i hmore
          have heq : k = old.1 := trichotomous.trichotomous _ _ hless hmore
          rw [replaceValue, List.lookup_cons, List.lookup_cons, heq]
          cases l == old.1 <;> rfl

theorem mem_insertBy_replaceValue [DecidableLT κ]
    (h : entry ∈ insertBy Prod.fst replaceValue (k, v) entries) :
    entry.2 = v ∨ entry ∈ entries := by
  induction entries with
  | nil =>
      cases List.mem_singleton.mp h
      exact .inl rfl
  | cons old rest ih =>
      simp only [insertBy] at h
      split at h
      · rcases List.mem_cons.mp h with rfl | h
        · exact .inl rfl
        · exact .inr h
      · split at h
        · rcases List.mem_cons.mp h with rfl | h
          · exact .inr List.mem_cons_self
          · exact (ih h).imp_right (List.mem_cons_of_mem old)
        · rcases List.mem_cons.mp h with rfl | h
          · exact .inl rfl
          · exact .inr (List.mem_cons_of_mem old h)

end Entries

end Archmap

/-!
# Lists ascending by a key

Every collection of this library whose order can be seen is a list that ascends strictly by some
key: classes by name, dependencies by their ends, groups by identifier, edges by the positions of
their nodes. Strictness makes the key unique, so such a list is at once a set or a finite map and
the one order in which it is shown.

`insertBy` is the only way in. It puts an element at its place, or merges it with the element that
has its key; `ascending_insertBy` and `ascending_collectBy` say that the order is kept.
-/

namespace Archmap

/-- The list ascends strictly by `key`. -/
def Ascending [LT κ] (key : α → κ) (xs : List α) : Prop :=
  xs.Pairwise fun a b => key a < key b

/-- Puts `a` at its place in a list ascending by `key`. If an element already has its key, that
element is replaced by `merge` of it and `a`. -/
def insertBy [LT κ] [DecidableLT κ] (key : α → κ) (merge : α → α → α) (a : α) : List α → List α
  | [] => [a]
  | b :: bs =>
    if key a < key b then a :: b :: bs
    else if key b < key a then b :: insertBy key merge a bs
    else merge b a :: bs

/-- Inserts the elements of a list one after the other, from the first on. -/
def collectBy [LT κ] [DecidableLT κ] (key : α → κ) (merge : α → α → α) (xs : List α) : List α :=
  xs.foldl (fun sorted a => insertBy key merge a sorted) []

/-- The merge that keeps the element already present. -/
def keepFirst (old _new : α) : α := old

/-- The merge of two entries with one key that takes the later value. -/
def replaceValue (old new : κ × ν) : κ × ν := (old.1, new.2)

/-! ## Insertion keeps the order -/

theorem key_mem_insertBy [LT κ] [DecidableLT κ] {key : α → κ} {merge : α → α → α} {a x : α}
    (merged : ∀ b, key (merge b a) = key b) {xs : List α} (h : x ∈ insertBy key merge a xs) :
    key x = key a ∨ ∃ y ∈ xs, key x = key y := by
  induction xs with
  | nil => simp_all [insertBy]
  | cons b bs ih =>
    simp only [insertBy] at h
    split at h
    · rcases List.mem_cons.1 h with rfl | h
      · exact .inl rfl
      · exact .inr ⟨x, h, rfl⟩
    · split at h
      · rcases List.mem_cons.1 h with rfl | h
        · exact .inr ⟨x, List.mem_cons_self, rfl⟩
        · rcases ih h with e | ⟨y, hy, e⟩
          · exact .inl e
          · exact .inr ⟨y, List.mem_cons_of_mem b hy, e⟩
      · rcases List.mem_cons.1 h with rfl | h
        · exact .inr ⟨b, List.mem_cons_self, merged b⟩
        · exact .inr ⟨x, List.mem_cons_of_mem b h, rfl⟩

/-- Insertion keeps a list ascending, provided that a merged element keeps its key. -/
theorem ascending_insertBy [LT κ] [DecidableLT κ]
    [order : Trans (fun x y : κ => x < y) (fun x y => x < y) (fun x y => x < y)]
    {key : α → κ} {merge : α → α → α} {a : α} (merged : ∀ b, key (merge b a) = key b)
    {xs : List α} (h : Ascending key xs) : Ascending key (insertBy key merge a xs) := by
  induction xs with
  | nil => simp [insertBy, Ascending]
  | cons b bs ih =>
    obtain ⟨below, rest⟩ := List.pairwise_cons.1 h
    simp only [insertBy]
    split
    · rename_i less
      refine List.pairwise_cons.2 ⟨fun x hx => ?_, h⟩
      rcases List.mem_cons.1 hx with rfl | hx
      · exact less
      · exact order.trans less (below x hx)
    · split
      · rename_i more
        refine List.pairwise_cons.2 ⟨fun x hx => ?_, ih rest⟩
        rcases key_mem_insertBy merged hx with e | ⟨y, hy, e⟩
        · exact e ▸ more
        · exact e ▸ below y hy
      · refine List.pairwise_cons.2 ⟨fun x hx => ?_, rest⟩
        exact merged b ▸ below x hx

/-- Whatever is collected, the result ascends. -/
theorem ascending_collectBy [LT κ] [DecidableLT κ]
    [Trans (fun x y : κ => x < y) (fun x y => x < y) (fun x y => x < y)]
    {key : α → κ} {merge : α → α → α} (merged : ∀ a b, key (merge b a) = key b)
    (xs : List α) : Ascending key (collectBy key merge xs) := by
  suffices ∀ sorted, Ascending key sorted →
      Ascending key (xs.foldl (fun sorted a => insertBy key merge a sorted) sorted) from
    this [] List.Pairwise.nil
  induction xs with
  | nil => exact fun _ h => h
  | cons a as ih => exact fun _ h => ih _ (ascending_insertBy (merged a) h)

end Archmap

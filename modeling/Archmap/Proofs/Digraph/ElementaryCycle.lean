import Mathlib.Data.List.Chain
import Mathlib.Data.List.Rotate
import Mathlib.Logic.Relation

/-!
# Elementary cycles

An elementary cycle is given by the list of its nodes from one of them on. The same cycle can be
listed from each of its nodes; the lists are rotations of each other, and if the nodes are ordered,
exactly one of them begins with the least node (`exists_leastFirst`, `leastFirst_unique`).

As soon as some node reaches itself there is an elementary cycle (`exists_elementaryCycle`): of the
closed ways, one through as few nodes as possible meets no node twice.
-/

namespace Archmap

open Relation

variable {α β : Type} {r : α → α → Prop} {c : List α}

/-- The nodes of an elementary cycle in order: at least two, none twice, with an arc from each to
the next and from the last to the first. -/
structure ElementaryCycle (r : α → α → Prop) (c : List α) : Prop where
  two_le : 2 ≤ c.length
  nodup : c.Nodup
  closed : ∀ ends ∈ c.zip (c.rotate 1), r ends.1 ends.2

/-! ## Closed chains -/

theorem isChain_iff_zip {a b : α} {p : List α} :
    List.IsChain r (a :: (p ++ [b])) ↔ ∀ ends ∈ (a :: p).zip (p ++ [b]), r ends.1 ends.2 := by
  induction p generalizing a with
  | nil => simp
  | cons x p ih =>
      rw [List.cons_append, List.isChain_cons_cons, ih]
      simp only [List.zip_cons_cons, List.mem_cons, forall_eq_or_imp]

theorem closed_iff_isChain {a : α} {p : List α} :
    (∀ ends ∈ (a :: p).zip ((a :: p).rotate 1), r ends.1 ends.2) ↔
      List.IsChain r (a :: (p ++ [a])) := by
  rw [isChain_iff_zip, List.rotate_cons_succ, List.rotate_zero]

theorem ElementaryCycle.transGen (h : ElementaryCycle r c) {a : α} (ha : c.head? = some a) :
    TransGen r a a := by
  obtain ⟨p, rfl⟩ : ∃ p, c = a :: p := by
    cases c with
    | nil => cases ha
    | cons b p => exact ⟨p, by rw [Option.some.inj ha]⟩
  have hchain := closed_iff_isChain.mp h.closed
  cases p with
  | nil => exact .single (List.isChain_cons_cons.mp hchain).1
  | cons b p =>
      obtain ⟨hab, hrest⟩ := List.isChain_cons_cons.mp hchain
      refine .head' hab ?_
      exact List.relationReflTransGen_of_exists_isChain_cons (p ++ [a]) hrest (by simp)

/-- No node of an elementary cycle is followed by itself. -/
theorem ElementaryCycle.ne_of_mem_zip (h : ElementaryCycle r c) {ends : α × α}
    (hends : ends ∈ c.zip (c.rotate 1)) : ends.1 ≠ ends.2 := by
  obtain ⟨i, hi, rfl⟩ := List.getElem_of_mem hends
  have hlength := h.two_le
  simp only [List.length_zip, List.length_rotate, Nat.min_self] at hi
  simp only [List.getElem_zip, List.getElem_rotate]
  rw [Ne, h.nodup.getElem_inj_iff]
  rcases Nat.lt_or_ge (i + 1) c.length with hlt | hge
  · rw [Nat.mod_eq_of_lt hlt]
    omega
  · rw [show i + 1 = c.length by omega, Nat.mod_self]
    omega

/-- Arcs from a node to itself do not count. -/
theorem elementaryCycle_congr {s : α → α → Prop} (hrs : ∀ a b, a ≠ b → (r a b ↔ s a b)) :
    ElementaryCycle r c ↔ ElementaryCycle s c := by
  constructor
  · exact fun h => ⟨h.two_le, h.nodup, fun ends hends =>
      (hrs _ _ (h.ne_of_mem_zip hends)).mp (h.closed ends hends)⟩
  · exact fun h => ⟨h.two_le, h.nodup, fun ends hends =>
      (hrs _ _ (h.ne_of_mem_zip hends)).mpr (h.closed ends hends)⟩

/-! ## Rotations -/

theorem ElementaryCycle.rotate (h : ElementaryCycle r c) (k : Nat) :
    ElementaryCycle r (c.rotate k) := by
  refine ⟨by rw [List.length_rotate]; exact h.two_le, List.nodup_rotate.mpr h.nodup, ?_⟩
  intro ends hends
  have hzip : (c.rotate k).zip ((c.rotate k).rotate 1) = (c.zip (c.rotate 1)).rotate k := by
    rw [List.rotate_rotate, Nat.add_comm, ← List.rotate_rotate]
    exact (List.zipWith_rotate_distrib _ _ _ k (List.length_rotate ..).symm).symm
  rw [hzip, List.mem_rotate] at hends
  exact h.closed ends hends

theorem ElementaryCycle.of_isRotated {c' : List α} (h : ElementaryCycle r c) (hrot : c ~r c') :
    ElementaryCycle r c' := by
  obtain ⟨k, rfl⟩ := hrot
  exact h.rotate k

/-- The list begins with its least node. -/
def LeastFirst {n : Nat} (c : List (Fin n)) : Prop :=
  ∀ a ∈ c.head?, ∀ v ∈ c, a ≤ v

theorem exists_leastFirst {n : Nat} {c : List (Fin n)} (hc : c ≠ []) :
    ∃ c', c ~r c' ∧ LeastFirst c' := by
  obtain ⟨least, hmin⟩ : ∃ least, c.minOn? id = some least :=
    Option.isSome_iff_exists.mp (List.isSome_minOn?_iff.mpr hc)
  have hlow : ∀ v ∈ c, least ≤ v := by
    intro v hv
    have hle := List.apply_get_minOn?_le_of_mem (f := id) hv
    simpa [hmin] using hle
  obtain ⟨before, behind, rfl⟩ := List.append_of_mem (List.minOn?_mem hmin)
  refine ⟨least :: behind ++ before, List.isRotated_append, ?_⟩
  intro a ha v hv
  obtain rfl : least = a := Option.some.inj ha
  exact hlow v (List.isRotated_append.mem_iff.mp hv)

/-- Lists that begin with the same node and are rotations of each other are equal, if no node
occurs twice. -/
theorem eq_of_isRotated {c' : List α} (hnodup : c.Nodup) (hrot : c ~r c')
    (hhead : c.head? = c'.head?) : c = c' := by
  obtain ⟨k, rfl⟩ := hrot
  cases c with
  | nil => simp
  | cons a p =>
      have hk : k % (a :: p).length < (a :: p).length := Nat.mod_lt _ (by simp)
      rw [← List.rotate_mod, List.head?_rotate hk, List.head?_eq_getElem?] at hhead
      have hzero : 0 = k % (a :: p).length :=
        (List.getElem?_inj (Nat.zero_lt_succ p.length) hnodup).mp hhead
      rw [← List.rotate_mod, ← hzero, List.rotate_zero]

theorem leastFirst_unique {n : Nat} {c c' : List (Fin n)} (hnodup : c.Nodup) (hrot : c ~r c')
    (h : LeastFirst c) (h' : LeastFirst c') : c = c' := by
  refine eq_of_isRotated hnodup hrot ?_
  cases c with
  | nil =>
      rw [List.isRotated_nil_iff'.mp hrot]
  | cons a p =>
      cases c' with
      | nil => exact absurd (List.isRotated_nil_iff.mp hrot) (by simp)
      | cons b q =>
          have hab : a ≤ b := h a rfl b (hrot.mem_iff.mpr (List.mem_cons_self ..))
          have hba : b ≤ a := h' b rfl a (hrot.mem_iff.mp (List.mem_cons_self ..))
          rw [List.head?_cons, List.head?_cons, Fin.le_antisymm hab hba]

/-! ## Renaming nodes -/

theorem elementaryCycle_map {f : α → β} (hf : Function.Injective f) {s : β → β → Prop} :
    ElementaryCycle s (c.map f) ↔ ElementaryCycle (fun a b => s (f a) (f b)) c := by
  have hclosed : (∀ ends ∈ (c.map f).zip ((c.map f).rotate 1), s ends.1 ends.2) ↔
      ∀ ends ∈ c.zip (c.rotate 1), s (f ends.1) (f ends.2) := by
    rw [← List.map_rotate, List.zip_map, List.forall_mem_map]
    rfl
  constructor
  · rintro ⟨hlength, hnodup, h⟩
    exact ⟨by simpa using hlength, (List.nodup_map_iff hf).mp hnodup, hclosed.mp h⟩
  · rintro ⟨hlength, hnodup, h⟩
    exact ⟨by simpa using hlength, (List.nodup_map_iff hf).mpr hnodup, hclosed.mpr h⟩

/-! ## A node that reaches itself -/

theorem exists_repetition (h : ¬c.Nodup) : ∃ x a y z, c = x ++ a :: (y ++ a :: z) := by
  induction c with
  | nil => exact absurd List.nodup_nil h
  | cons b c ih =>
      by_cases hb : b ∈ c
      · obtain ⟨y, z, rfl⟩ := List.append_of_mem hb
        exact ⟨[], b, y, z, rfl⟩
      · obtain ⟨x, a, y, z, rfl⟩ := ih fun hnodup => h (List.nodup_cons.mpr ⟨hb, hnodup⟩)
        exact ⟨b :: x, a, y, z, rfl⟩

/-- A closed chain that meets a node twice has a shorter closed chain inside. -/
theorem exists_shorter {a : α} {p : List α} (h : List.IsChain r (a :: (p ++ [a])))
    (hdup : ¬(a :: p).Nodup) :
    ∃ b q, List.IsChain r (b :: (q ++ [b])) ∧ q.length < p.length := by
  obtain ⟨x, b, y, z, hsplit⟩ := exists_repetition hdup
  have hwhole : List.IsChain r (x ++ b :: (y ++ b :: (z ++ [a]))) := by
    have happend : a :: (p ++ [a]) = x ++ b :: (y ++ b :: (z ++ [a])) := by
      rw [← List.cons_append, hsplit]
      simp
    exact happend ▸ h
  have hinner : List.IsChain r ((b :: y) ++ b :: (z ++ [a])) := (List.isChain_split.mp hwhole).2
  refine ⟨b, y, (List.isChain_split.mp hinner).1, ?_⟩
  have hlength := congrArg List.length hsplit
  simp only [List.length_cons, List.length_append] at hlength
  omega

theorem exists_closed_chain {a : α} (h : TransGen r a a) :
    ∃ p, List.IsChain r (a :: (p ++ [a])) := by
  obtain ⟨b, hway, hlast⟩ := TransGen.tail'_iff.mp h
  obtain ⟨p, hchain, hend⟩ := List.exists_isChain_cons_of_relationReflTransGen hway
  refine ⟨p, ?_⟩
  rw [← List.cons_append, List.isChain_append]
  refine ⟨hchain, List.isChain_singleton a, ?_⟩
  intro x hx y hy
  rw [List.getLast?_eq_some_getLast (List.cons_ne_nil a p), hend] at hx
  obtain rfl := Option.some.inj hx
  obtain rfl := Option.some.inj hy
  exact hlast

/-- A node that reaches itself makes an elementary cycle exist, if no node has an arc to itself. -/
theorem exists_elementaryCycle (hloop : ∀ a, ¬r a a) {a : α} (h : TransGen r a a) :
    ∃ c, ElementaryCycle r c := by
  obtain ⟨p, hchain⟩ := exists_closed_chain h
  clear h
  induction hlength : p.length using Nat.strongRecOn generalizing a p with
  | _ k ih =>
      by_cases hnodup : (a :: p).Nodup
      · refine ⟨a :: p, ?_, hnodup, closed_iff_isChain.mpr hchain⟩
        cases p with
        | nil => exact absurd (List.isChain_cons_cons.mp hchain).1 (hloop a)
        | cons b p => simp
      · obtain ⟨b, q, hshort, hless⟩ := exists_shorter hchain hnodup
        exact ih q.length (hlength ▸ hless) q hshort rfl

end Archmap

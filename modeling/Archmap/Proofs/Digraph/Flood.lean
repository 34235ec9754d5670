import Mathlib.Data.List.TakeWhile
import Mathlib.Logic.Relation
import Archmap.Digraph.Flood

/-!
# What a flood reaches

A flood enters exactly the nodes to which a way leads that starts in the work list and passes only
through nodes that were free (`flood_get`). The number of free nodes bounds the rounds, because
every round takes one of them away; the nodes a round takes away cut no way that matters, since
what could be reached through such a node is reached from its successors, which join the work.
-/

namespace Archmap

variable {n : Nat} {next : Fin n → List (Fin n)}

/-! ## Sets of nodes -/

theorem vector_get {α : Type} (xs : Vector α n) (v : Fin n) : xs.get v = xs[v.val] := rfl

theorem get_set (free : NodeSet n) (v w : Fin n) (b : Bool) :
    (free.set v b v.isLt).get w = if v = w then b else free.get w := by
  simp only [vector_get, Vector.getElem_set, Fin.ext_iff]

theorem get_ofFn {α : Type} (f : Fin n → α) (v : Fin n) : (Vector.ofFn f).get v = f v := by
  simp [vector_get]

theorem get_replicate {α : Type} (a : α) (v : Fin n) : (Vector.replicate n a).get v = a := by
  simp [vector_get]

theorem count_set_lt {free : NodeSet n} {v : Fin n} (h : free.get v = true) :
    (free.set v false v.isLt).count true < free.count true := by
  have hv : free[v.val] = true := h
  have hpos : (if free[v.val] == true then 1 else 0) ≤ free.count true :=
    Vector.boole_getElem_le_count v.isLt
  rw [Vector.count_set]
  simp only [hv, beq_self_eq_true, if_true] at hpos ⊢
  simp only [Bool.false_eq_true, beq_iff_eq, if_false]
  omega

/-! ## Ways through free nodes -/

/-- There is an arc from `v` to `w`, and `w` is free. -/
def ArcInto (next : Fin n → List (Fin n)) (free : NodeSet n) (v w : Fin n) : Prop :=
  w ∈ next v ∧ free.get w = true

/-- A way through free nodes leads from the work list to `v`. -/
def Floods (next : Fin n → List (Fin n)) (free : NodeSet n) (work : List (Fin n)) (v : Fin n) :
    Prop :=
  ∃ w ∈ work, free.get w = true ∧ Relation.ReflTransGen (ArcInto next free) w v

theorem Floods.free {free : NodeSet n} {work : List (Fin n)} {v : Fin n}
    (h : Floods next free work v) : free.get v = true := by
  obtain ⟨w, -, hw, hway⟩ := h
  cases hway with
  | refl => exact hw
  | tail _ hlast => exact hlast.2

/-- Nodes of the work list that are not free start no way. -/
theorem floods_dropWhile {free : NodeSet n} {work : List (Fin n)} {v : Fin n} :
    Floods next free (work.dropWhile fun w => !free.get w) v ↔ Floods next free work v := by
  induction work with
  | nil => rfl
  | cons w work ih =>
      by_cases hw : free.get w = true
      · rw [List.dropWhile_cons_of_neg (by simp [hw])]
      · rw [List.dropWhile_cons_of_pos (by simpa using hw), ih]
        constructor
        · rintro ⟨u, hu, hrest⟩
          exact ⟨u, List.mem_cons_of_mem w hu, hrest⟩
        · rintro ⟨u, hu, hfree, hway⟩
          rcases List.mem_cons.mp hu with rfl | hu
          · exact absurd hfree hw
          · exact ⟨u, hu, hfree, hway⟩

/-- A way through free nodes either avoids `node`, or it ends there, or its part behind the last
visit to `node` starts at a successor. -/
theorem way_avoiding {free : NodeSet n} (node : Fin n) {w v : Fin n} (hw : free.get w = true)
    (h : Relation.ReflTransGen (ArcInto next free) w v) :
    v = node ∨ Floods next (free.set node false node.isLt) (w :: next node) v := by
  have hstays : ∀ {u}, u ≠ node → free.get u = true →
      (free.set node false node.isLt).get u = true := by
    intro u hne hu
    rw [get_set, if_neg fun heq => hne heq.symm]
    exact hu
  induction h with
  | refl =>
      by_cases hne : w = node
      · exact Or.inl hne
      · exact Or.inr ⟨w, List.mem_cons_self .., hstays hne hw, .refl⟩
  | @tail u v _ hlast ih =>
      by_cases hne : v = node
      · exact Or.inl hne
      · right
        have hv := hstays hne hlast.2
        rcases ih with rfl | ⟨x, hx, hfree, hway⟩
        · exact ⟨v, List.mem_cons_of_mem w hlast.1, hv, .refl⟩
        · exact ⟨x, hx, hfree, hway.tail ⟨hlast.1, hv⟩⟩

theorem Floods.of_set {free : NodeSet n} {node v : Fin n} {work : List (Fin n)}
    (h : Floods next (free.set node false node.isLt) work v) : Floods next free work v := by
  have hfree : ∀ {u}, (free.set node false node.isLt).get u = true → free.get u = true := by
    intro u hu
    rw [get_set] at hu
    split at hu
    · cases hu
    · exact hu
  obtain ⟨w, hw, hfw, hway⟩ := h
  exact ⟨w, hw, hfree hfw, Relation.ReflTransGen.mono (fun _ _ harc => ⟨harc.1, hfree harc.2⟩) _ _ hway⟩

/-- One round: what is flooded from `node :: work` is `node` and what is flooded without it from its
successors and the rest of the work. -/
theorem floods_cons {free : NodeSet n} {node v : Fin n} {work : List (Fin n)}
    (hnode : free.get node = true) :
    Floods next free (node :: work) v ↔
      v = node ∨ Floods next (free.set node false node.isLt) (next node ++ work) v := by
  constructor
  · rintro ⟨w, hw, hfree, hway⟩
    rcases way_avoiding node hfree hway with rfl | ⟨x, hx, hfx, hway'⟩
    · exact Or.inl rfl
    · right
      rcases List.mem_cons.mp hx with rfl | hx
      · rcases List.mem_cons.mp hw with rfl | hw
        · simp [get_set] at hfx
        · exact ⟨x, List.mem_append_right _ hw, hfx, hway'⟩
      · exact ⟨x, List.mem_append_left _ hx, hfx, hway'⟩
  · rintro (rfl | h)
    · exact ⟨v, List.mem_cons_self .., hnode, .refl⟩
    · obtain ⟨w, hw, hfw, hway⟩ := h.of_set
      rcases List.mem_append.mp hw with hw | hw
      · exact ⟨node, List.mem_cons_self .., hnode, .head ⟨hw, hfw⟩ hway⟩
      · exact ⟨w, List.mem_cons_of_mem node hw, hfw, hway⟩

/-! ## The flood -/

theorem floodRounds_get {rounds : Nat} {free : NodeSet n} {work : List (Fin n)} (v : Fin n)
    (hrounds : free.count true ≤ rounds) :
    (floodRounds next rounds free work).get v = true ↔
      free.get v = true ∧ ¬Floods next free work v := by
  induction rounds generalizing free work with
  | zero =>
      have hnone : ∀ w : Fin n, free.get w ≠ true := fun w hw => by
        have := count_set_lt hw
        omega
      simp [floodRounds, hnone v]
  | succ rounds ih =>
      rw [← floods_dropWhile, floodRounds]
      split
      · rename_i hwork
        simp [hwork, Floods]
      · rename_i node rest hwork
        have hnode : free.get node = true := by
          have hhead := List.head?_dropWhile_not (fun w => !free.get w) work
          rw [hwork] at hhead
          simpa using hhead
        have hless := count_set_lt hnode
        rw [hwork, ih (by omega), floods_cons hnode, get_set]
        by_cases hv : node = v
        · simp [hv]
        · have hv' : v ≠ node := fun heq => hv heq.symm
          simp [hv, hv']

/-- A flood leaves exactly the free nodes to which no way leads from the work list. -/
theorem flood_get {free : NodeSet n} {work : List (Fin n)} (v : Fin n) :
    (flood next free work).get v = true ↔ free.get v = true ∧ ¬Floods next free work v :=
  floodRounds_get v (Nat.le_refl _)

theorem reachable_get {allowed : NodeSet n} {node : Fin n} (v : Fin n) :
    (reachable next allowed node).get v = true ↔
      allowed.get node = true ∧ Relation.ReflTransGen (ArcInto next allowed) node v := by
  have hflood : (flood next allowed [node]).get v = true ↔
      allowed.get v = true ∧ ¬Floods next allowed [node] v := flood_get v
  have hsingle : Floods next allowed [node] v ↔
      allowed.get node = true ∧ Relation.ReflTransGen (ArcInto next allowed) node v := by
    simp [Floods]
  rw [← hsingle]
  simp only [reachable, get_ofFn, Bool.and_eq_true, Bool.not_eq_true']
  constructor
  · rintro ⟨hv, hrest⟩
    by_contra hno
    rw [hflood.mpr ⟨hv, hno⟩] at hrest
    cases hrest
  · intro h
    refine ⟨h.free, ?_⟩
    by_contra hrest
    exact (hflood.mp (by simpa using hrest)).2 h

end Archmap

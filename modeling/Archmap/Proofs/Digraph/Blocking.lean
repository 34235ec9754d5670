import Archmap.Proofs.Digraph.WaysBack

/-!
# Blocked nodes lead nowhere

Why the search may refuse to enter a blocked node. The trail stands blocked from its first node to
its last. A blocked node off the trail was left without a way back: its successors in the component
are blocked as well, none of them is the start, and it waits for each of them (`Blocking`). So every
way from it runs through blocked nodes into the trail, and there is nothing behind it to be found
(`Blocking.waysBack_eq_nil`). What is noted of nodes outside the component plays no part.

The delicate step is the release of a node through which a way back was found, since whatever waits
for it is released too, and a node of the trail must not be. A node may wait for another from an
earlier visit, which is never taken back. But at the time the released node was entered, nothing
could wait for a node that was not blocked, and everything the release reaches had been left
unblocked by then (`not_blocked_of_released`); a node of the trail would have been waiting already.
-/

namespace Archmap

namespace Search

open Relation

variable {n : Nat} {next : Fin n → List (Fin n)} {component : NodeSet n} {start node : Fin n}
  {trail : List (Fin n)} {s s₀ t : Search n}

/-- `t` is a state in which the walk through a component may begin where `s` ended the one before:
nothing is noted of the nodes of the component, and what has been found is kept. -/
structure Cleared (component : NodeSet n) (s t : Search n) : Prop where
  blocked : ∀ v, component.get v = true → t.blocked.get v = false
  waiters : ∀ v, component.get v = true → t.waiters.get v = []
  room : t.room = s.room
  found : t.found = s.found
  truncated : t.truncated = s.truncated

theorem cleared_restart (s : Search n) : Cleared component s s.restart :=
  ⟨fun v _ => get_replicate false v, fun v _ => get_replicate [] v, rfl, rfl, rfl⟩

/-- The state of blocking while the walk stands at the end of the trail. -/
structure Blocking (next : Fin n → List (Fin n)) (component : NodeSet n) (start : Fin n)
    (s : Search n) (trail : List (Fin n)) : Prop where
  within : ∀ v ∈ trail, component.get v = true
  walked : ∀ v ∈ trail, s.blocked.get v = true
  left : ∀ v, component.get v = true → s.blocked.get v = true → v ∉ trail → ∀ w ∈ next v,
    component.get w = true → w ≠ start ∧ s.blocked.get w = true ∧ v ∈ s.waiters.get w
  awaited : ∀ v w, component.get w = true → v ∈ s.waiters.get w → s.blocked.get w = true
  arc : ∀ v w, component.get w = true → v ∈ s.waiters.get w → w ∈ next v ∧ component.get v = true

theorem Cleared.blocking (h : Cleared component s t) : Blocking next component start t [] := by
  constructor
  · exact List.forall_mem_nil _
  · exact List.forall_mem_nil _
  · intro v hin hv
    rw [h.blocked v hin] at hv
    cases hv
  · intro v w hin hwaits
    rw [h.waiters w hin] at hwaits
    cases hwaits
  · intro v w hin hwaits
    rw [h.waiters w hin] at hwaits
    cases hwaits

theorem Blocking.not_mem_trail (h : Blocking next component start s trail)
    (hnode : s.blocked.get node = false) : node ∉ trail := by
  intro hmem
  rw [h.walked node hmem] at hnode
  cases hnode

/-- A way back from a blocked node off the trail does not exist. -/
theorem Blocking.waysBack_eq_nil (h : Blocking next component start s trail) {v : Fin n}
    (hin : component.get v = true) (hv : s.blocked.get v = true) (hoff : v ∉ trail) {depth : Nat}
    {trail' : List (Fin n)} (hsub : trail ⊆ trail') :
    waysBack next component.get start depth trail' v = [] := by
  induction depth generalizing v trail' with
  | zero => rfl
  | succ depth ih =>
      rw [waysBack, List.flatMap_eq_nil_iff]
      intro w harc
      by_cases hw : component.get w = true
      · obtain ⟨hne, hblocked, -⟩ := h.left v hin hv hoff w harc hw
        by_cases hmem : w ∈ v :: trail'
        · simp [waysVia, hne, hmem]
        · have hwoff : w ∉ trail := fun hw => hmem (List.mem_cons_of_mem v (hsub hw))
          have hnone := ih hw hblocked hwoff (fun u hu => List.mem_cons_of_mem v (hsub hu))
          simp [waysVia, hne, hmem, hnone]
      · simp [waysVia, hw]

/-! ## Entering a node -/

theorem block_get (s : Search n) (v : Fin n) :
    (s.block node).blocked.get v = if node = v then true else s.blocked.get v :=
  get_set s.blocked node v true

theorem Blocking.block (h : Blocking next component start s trail)
    (hnode : component.get node = true) :
    Blocking next component start (s.block node) (node :: trail) := by
  have hstays : ∀ v, s.blocked.get v = true → (s.block node).blocked.get v = true := by
    intro v hv
    rw [block_get]
    split
    · rfl
    · exact hv
  constructor
  · exact List.forall_mem_cons.mpr ⟨hnode, h.within⟩
  · intro v hv
    rcases List.mem_cons.mp hv with rfl | hv
    · rw [block_get, if_pos rfl]
    · exact hstays v (h.walked v hv)
  · intro v hin hv hoff w harc hw
    obtain ⟨hne, hoff⟩ := List.ne_and_not_mem_of_not_mem_cons hoff
    rw [block_get, if_neg fun heq => hne heq.symm] at hv
    obtain ⟨hstart, hblocked, hwaits⟩ := h.left v hin hv hoff w harc hw
    exact ⟨hstart, hstays w hblocked, hwaits⟩
  · exact fun v w hin hwaits => hstays w (h.awaited v w hin hwaits)
  · exact h.arc

/-! ## Leaving a node without a way back -/

theorem mem_await {awaited : List (Fin n)} {v w : Fin n} :
    v ∈ (s.await node awaited).waiters.get w ↔
      v ∈ s.waiters.get w ∨ v = node ∧ w ∈ awaited := by
  simp only [await, get_ofFn]
  split
  · rename_i h
    simp only [List.mem_cons, h.1, and_true]
    exact or_comm
  · rename_i h
    constructor
    · exact Or.inl
    · rintro (hmem | ⟨rfl, hw⟩)
      · exact hmem
      · by_contra hmem
        exact h ⟨hw, hmem⟩

theorem Blocking.await (h : Blocking next component start s (node :: trail))
    (hdead : ∀ w ∈ next node, component.get w = true → w ≠ start ∧ s.blocked.get w = true) :
    Blocking next component start (s.await node ((next node).filter component.get)) trail := by
  obtain ⟨hnode, hwithin⟩ := List.forall_mem_cons.mp h.within
  constructor
  · exact hwithin
  · exact fun v hv => h.walked v (List.mem_cons_of_mem node hv)
  · intro v hin hv hoff w harc hw
    rw [mem_await]
    by_cases heq : v = node
    · obtain ⟨hstart, hblocked⟩ := hdead w (heq ▸ harc) hw
      exact ⟨hstart, hblocked, Or.inr ⟨heq, List.mem_filter.mpr ⟨heq ▸ harc, hw⟩⟩⟩
    · obtain ⟨hstart, hblocked, hwaits⟩ :=
        h.left v hin hv (List.not_mem_cons_of_ne_of_not_mem heq hoff) w harc hw
      exact ⟨hstart, hblocked, Or.inl hwaits⟩
  · intro v w hin hwaits
    rcases mem_await.mp hwaits with hwaits | ⟨rfl, hw⟩
    · exact h.awaited v w hin hwaits
    · exact (hdead w (List.mem_of_mem_filter hw) hin).2
  · intro v w hin hwaits
    rcases mem_await.mp hwaits with hwaits | ⟨rfl, hw⟩
    · exact h.arc v w hin hwaits
    · exact ⟨List.mem_of_mem_filter hw, hnode⟩

/-! ## Releasing a node -/

/-- A blocked node `w` waits for `v`. -/
def Waits (s : Search n) (v w : Fin n) : Prop :=
  w ∈ s.waiters.get v ∧ s.blocked.get w = true

/-- The release of `node` reaches `v`: it is the node itself or waits for it through others. -/
def Released (s : Search n) (node v : Fin n) : Prop := ReflTransGen s.Waits node v

theorem released_iff {v : Fin n} :
    s.Released node v ↔ v = node
      ∨ Floods s.waiters.get (s.blocked.set node false node.isLt) (s.waiters.get node) v := by
  have hset : (s.blocked.set node true node.isLt).set node false node.isLt
      = s.blocked.set node false node.isLt := Vector.set_set ..
  have hget : ∀ u, (s.blocked.set node true node.isLt).get u
      = if node = u then true else s.blocked.get u := fun u => get_set s.blocked node u true
  have hnode : (s.blocked.set node true node.isLt).get node = true := by rw [hget, if_pos rfl]
  have hround : Floods s.waiters.get (s.blocked.set node true node.isLt) [node] v ↔ _ :=
    floods_cons hnode
  rw [hset, List.append_nil] at hround
  rw [← hround]
  constructor
  · intro h
    refine ⟨node, List.mem_singleton.mpr rfl, hnode, ReflTransGen.mono ?_ _ _ h⟩
    rintro u w ⟨hwaits, hw⟩
    refine ⟨hwaits, ?_⟩
    rw [hget, hw, ite_self]
  · rintro ⟨u, hu, -, hway⟩
    obtain rfl := List.mem_singleton.mp hu
    clear hround
    induction hway with
    | refl => exact .refl
    | @tail x w _ hlast ih =>
        -- a way that returns to the node can begin there
        by_cases heq : u = w
        · exact heq ▸ .refl
        · exact ih.tail ⟨hlast.1, by simpa [hget, heq] using hlast.2⟩

theorem unblock_blocked {v : Fin n} :
    (s.unblock node).blocked.get v = true ↔ s.blocked.get v = true ∧ ¬s.Released node v := by
  simp only [unblock, flood_get, released_iff, get_set, not_or]
  by_cases hv : node = v
  · simp [hv]
  · have hv' : v ≠ node := fun heq => hv heq.symm
    simp [hv, hv']

/-- Nothing waits any more for a node that is released, and for other nodes waits what did before. -/
theorem unblock_waiters (v : Fin n) :
    (s.Released node v → (s.unblock node).waiters.get v = [])
      ∧ (¬s.Released node v → (s.unblock node).waiters.get v = s.waiters.get v) := by
  have hcleared : (v = node || ((s.blocked.set node false node.isLt).get v
      && !(s.unblock node).blocked.get v)) = true ↔ s.Released node v := by
    rw [released_iff, Bool.or_eq_true, decide_eq_true_eq, Bool.and_eq_true, Bool.not_eq_true']
    refine or_congr_right ?_
    rw [← Bool.not_eq_true, show (s.unblock node).blocked.get v = true ↔ _ from flood_get v]
    constructor
    · rintro ⟨hothers, hstill⟩
      by_contra hno
      exact hstill ⟨hothers, hno⟩
    · exact fun h => ⟨h.free, fun hstill => hstill.2 h⟩
  have hget : (s.unblock node).waiters.get v
      = if (v = node || ((s.blocked.set node false node.isLt).get v
          && !(s.unblock node).blocked.get v)) = true then [] else s.waiters.get v :=
    get_ofFn _ v
  rw [hget]
  exact ⟨fun h => if_pos (hcleared.mpr h), fun h => if_neg fun hv => h (hcleared.mp hv)⟩

theorem mem_unblock_waiters {v w : Fin n} :
    v ∈ (s.unblock node).waiters.get w ↔ v ∈ s.waiters.get w ∧ ¬s.Released node w := by
  by_cases hw : s.Released node w
  · simp [(unblock_waiters w).1 hw, hw]
  · simp [(unblock_waiters w).2 hw, hw]

/-- Everything that a release reaches was left unblocked when the released node was entered, and
nothing of it is on the trail. -/
theorem not_blocked_of_released (h₀ : Blocking next component start s₀ trail)
    (hin : component.get node = true) (hnode : s₀.blocked.get node = false)
    (hwaiting : ∀ v ∈ trail, ∀ w, v ∈ s.waiters.get w → v ∈ s₀.waiters.get w)
    (harcs : ∀ v w, component.get w = true → v ∈ s.waiters.get w →
      w ∈ next v ∧ component.get v = true) {v : Fin n}
    (h : s.Released node v) :
    component.get v = true ∧ v ∉ trail ∧ s₀.blocked.get v = false := by
  induction h with
  | refl => exact ⟨hin, h₀.not_mem_trail hnode, hnode⟩
  | @tail w v _ hlast ih =>
      obtain ⟨hwin, -, hw⟩ := ih
      obtain ⟨harc, hvin⟩ := harcs v w hwin hlast.1
      have hoff : v ∉ trail := by
        intro hmem
        rw [h₀.awaited v w hwin (hwaiting v hmem w hlast.1)] at hw
        cases hw
      refine ⟨hvin, hoff, ?_⟩
      by_contra hv
      rw [(h₀.left v hvin (by simpa using hv) hoff w harc hwin).2.1] at hw
      cases hw

theorem Blocking.unblock (h : Blocking next component start s (node :: trail))
    (hspared : ∀ v ∈ trail, ¬s.Released node v) :
    Blocking next component start (s.unblock node) trail := by
  constructor
  · exact (List.forall_mem_cons.mp h.within).2
  · exact fun v hv =>
      unblock_blocked.mpr ⟨h.walked v (List.mem_cons_of_mem node hv), hspared v hv⟩
  · intro v hvin hv hoff w harc hw
    obtain ⟨hblocked, hkept⟩ := unblock_blocked.mp hv
    have hne : v ≠ node := fun heq => hkept (heq ▸ .refl)
    obtain ⟨hstart, hwblocked, hwaits⟩ :=
      h.left v hvin hblocked (List.not_mem_cons_of_ne_of_not_mem hne hoff) w harc hw
    -- a released successor would have released `v`
    have hwkept : ¬s.Released node w := fun hreleased => hkept (hreleased.tail ⟨hwaits, hblocked⟩)
    exact ⟨hstart, unblock_blocked.mpr ⟨hwblocked, hwkept⟩, mem_unblock_waiters.mpr ⟨hwaits, hwkept⟩⟩
  · intro v w hwin hwaits
    obtain ⟨hwaits, hwkept⟩ := mem_unblock_waiters.mp hwaits
    exact unblock_blocked.mpr ⟨h.awaited v w hwin hwaits, hwkept⟩
  · exact fun v w hwin hwaits => h.arc v w hwin (mem_unblock_waiters.mp hwaits).1

end Search

end Archmap

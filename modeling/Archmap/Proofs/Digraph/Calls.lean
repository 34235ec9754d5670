import Archmap.Proofs.Digraph.Runs

/-!
# Every call of the walk

The blocking of nodes is kept up by all calls of the walk together, from the first to the last. Here
it is told call by call: in which states calls are made (`Called`), what holds there, and what holds
again when a call returns.

A call is made only where the limit has not been met and for a node that is not blocked, so the
trail never holds a node twice and is never longer than the component (`Called.entry`). A call takes
no block away from the trail, met the limit or not. If it did not meet the limit, the blocking is
again as it should be, and if it found no way back, its node is left blocked off the trail: every
way to the start leads into the trail (`Blocking.meets_trail`).
-/

namespace Archmap

namespace Search

variable {n : Nat} {next : Fin n → List (Fin n)} {component : NodeSet n} {start node w : Fin n}
  {depth : Nat} {trail ws : List (Fin n)} {s t : Search n}

/-! ## The calls -/

/-- Follows the arcs from `node` to `ws`, the first ones of a call that is made in the state `s`. -/
def arcsFollowed (next : Fin n → List (Fin n)) (component : NodeSet n) (start : Fin n)
    (depth : Nat) (trail : List (Fin n)) (node : Fin n) (s : Search n) (ws : List (Fin n)) :
    Bool × Search n :=
  ws.foldl (follow (walk next component start depth (node :: trail)) component start
    (node :: trail)) (false, s.block node)

/-- A call that has found a way back when its arcs are followed ends with a release. -/
theorem walk_eq_unblock
    (hfound : arcsFollowed next component start depth trail node s (next node) = (true, t)) :
    walk next component start (depth + 1) trail node s = (true, t.unblock node) := by
  rw [arcsFollowed] at hfound
  rw [walk, hfound]
  rfl

/-- The walk through a component from `start` in the state `t` comes to make a call for `node`, with
the trail behind it, in the state `s`. -/
inductive Called (next : Fin n → List (Fin n)) (component : NodeSet n) (start : Fin n)
    (t : Search n) : (depth : Nat) → (trail : List (Fin n)) → (node : Fin n) → Search n → Prop
  | root : Called next component start t n [] start t
  | inner {depth : Nat} {trail ws ws' : List (Fin n)} {node w : Fin n} {s u : Search n}
      (hcalled : Called next component start t (depth + 1) trail node s)
      (harcs : next node = ws ++ w :: ws')
      (hbefore : (arcsFollowed next component start depth trail node s ws).2 = u)
      (hfollow : ¬Skips component start u w) (hne : w ≠ start) :
      Called next component start t depth (node :: trail) w u

/-- The search that goes on at `first` in the state `s` comes to walk through `component` from
`start`, in the state `t`. -/
inductive Begins (split : Splitter) (next : Fin n → List (Fin n)) (component : NodeSet n)
    (start : Fin n) (t : Search n) : (first : Nat) → Search n → Prop
  | here {first : Nat} {s : Search n} {members : List (Fin n)}
      (hleast : leastComponent? split next first = some (start, members))
      (hmembers : component = membersOf members) (hclear : Cleared component s t) :
      Begins split next component start t first s
  | later {first : Nat} {s u : Search n} {least : Fin n} {members : List (Fin n)}
      (hleast : leastComponent? split next first = some (least, members))
      (hclear : Cleared (membersOf members) s u)
      (hroom : (walk next (membersOf members) least n [] least u).2.truncated = false)
      (hrest : Begins split next component start t (least + 1)
        (walk next (membersOf members) least n [] least u).2) :
      Begins split next component start t first s

/-! ## At the entry -/

theorem length_le_count (hnodup : ws.Nodup) (hin : ∀ v ∈ ws, component.get v = true) :
    ws.length ≤ component.count true := by
  induction ws generalizing component with
  | nil => exact Nat.zero_le _
  | cons w ws ih =>
      obtain ⟨hnew, hnodup⟩ := List.nodup_cons.mp hnodup
      obtain ⟨hw, hin⟩ := List.forall_mem_cons.mp hin
      have hothers : ∀ v ∈ ws, (component.set w false w.isLt).get v = true := by
        intro v hv
        have hne : w ≠ v := fun heq => hnew (heq ▸ hv)
        rw [get_set, if_neg hne]
        exact hin v hv
      exact Nat.lt_of_le_of_lt (ih hnodup hothers) (count_set_lt hw)

theorem Entry.length_lt (h : Entry next component start depth trail node s) :
    trail.length < component.count true :=
  length_le_count h.nodup_cons (List.forall_mem_cons.mpr ⟨h.inside, h.blocking.within⟩)

theorem Entry.arcs_progress (h : Entry next component start (depth + 1) trail node s)
    (ws : List (Fin n)) :
    Progress next component start (node :: trail) (false, s.block node)
      (arcsFollowed next component start depth trail node s ws) ws
      (ws.flatMap (waysVia (waysBack next component.get start depth (node :: trail)) component.get
        start (node :: trail))) :=
  Search.arcs_progress h.room (h.blocking.block h.inside) h.nodup_cons h.length_cons

/-- A call makes calls as it was made itself. -/
theorem Entry.inner (h : Entry next component start (depth + 1) trail node s)
    (hfollow : ¬Skips component start
      (arcsFollowed next component start depth trail node s ws).2 w) (hne : w ≠ start) :
    Entry next component start depth (node :: trail) w
      (arcsFollowed next component start depth trail node s ws).2 := by
  simp only [Skips, not_or, not_and, Bool.not_eq_true, Bool.not_eq_false] at hfollow
  obtain ⟨hroom, hin, hfree⟩ := hfollow
  exact h.step hroom ((h.arcs_progress ws).explores hroom).blocking hin (hfree hne)

theorem Called.entry (h : Called next component start t depth trail node s)
    (hroot : Entry next component start n [] start t) :
    Entry next component start depth trail node s := by
  induction h with
  | root => exact hroot
  | inner _ _ hbefore hfollow hne ih =>
      subst hbefore
      exact ih.inner hfollow hne

theorem Begins.entry {split : Splitter} {first : Nat}
    (h : Begins split next component start t first s) (hs : s.truncated = false) :
    Entry next component start n [] start t := by
  induction h with
  | here hleast hmembers hclear =>
      subst hmembers
      exact hclear.entry hs (get_membersOf.mpr (leastComponent?_mem hleast).2)
  | later _ _ hroom _ ih => exact ih hroom

/-! ## On return -/

/-- From a blocked node off the trail every way to the start leads into the trail. -/
theorem Blocking.meets_trail (h : Blocking next component start s trail) {p : List (Fin n)}
    (hin : component.get node = true) (hnode : s.blocked.get node = true) (hoff : node ∉ trail)
    (hstart : component.get start = true)
    (hway : (node :: (p ++ [start])).IsChain (Arc next)) (hp : ∀ v ∈ p, component.get v = true) :
    ∃ v ∈ p, v ∈ trail := by
  induction p generalizing node with
  | nil =>
      have harc : start ∈ next node := (List.isChain_cons_cons.mp hway).1
      exact absurd rfl (h.left node hin hnode hoff start harc hstart).1
  | cons w p ih =>
      obtain ⟨harc, hway⟩ := List.isChain_cons_cons.mp hway
      obtain ⟨hw, hp⟩ := List.forall_mem_cons.mp hp
      by_cases hmem : w ∈ trail
      · exact ⟨w, List.mem_cons_self, hmem⟩
      · obtain ⟨v, hv, htrail⟩ :=
          ih hw (h.left node hin hnode hoff w harc hw).2.1 hmem hway hp
        exact ⟨v, List.mem_cons_of_mem w hv, htrail⟩

/-- A call that found a way back releases nothing on the trail, even if it met the limit then. -/
theorem Entry.release (h : Entry next component start (depth + 1) trail node s)
    (hfound : arcsFollowed next component start depth trail node s (next node) = (true, t))
    {v : Fin n} (hv : v ∈ trail) :
    t.blocked.get v = true ∧ (t.unblock node).blocked.get v = true := by
  have hspares := (h.arcs_progress (next node)).spares
  rw [hfound] at hspares
  exact ⟨hspares.walked v (List.mem_cons_of_mem node hv),
    (hspares.unblock h).walked v hv⟩

/-- A call that found no way back and did not meet the limit leaves its node blocked. -/
theorem Entry.left (h : Entry next component start depth trail node s)
    (hroom : (walk next component start depth trail node s).2.truncated = false)
    (hnone : (walk next component start depth trail node s).1 = false) :
    (walk next component start depth trail node s).2.blocked.get node = true := by
  have hexplores := (walk_progress h).explores hroom
  have hclosed := hexplores.closed
  simp only [hnone, Bool.false_eq_true, false_or, false_iff, ne_eq, not_not] at hclosed
  exact hexplores.dead hclosed node List.mem_cons_self h.inside

/-- The walks through the components keep the blocking of nodes up. Wherever a call is made the
limit has not been met, the trail does not repeat itself, and the nodes are blocked as they should
be, before the node is put at its end and after; so they are when the call returns, unless it met the
limit. The calls do not go deeper than the component has nodes, and so are never cut off. A release
takes no block away from the rest of the trail. And where no way back was found, every way to the
start through the component meets the rest of the trail before. -/
theorem calls_keep_blocking {split : Splitter} {max : Nat}
    (hbegins : Begins split next component start t 0 (fresh n max))
    (hcalled : Called next component start t depth trail node s) :
    (s.truncated = false ∧ (node :: trail).Nodup ∧ Blocking next component start s trail
        ∧ Blocking next component start (s.block node) (node :: trail))
      ∧ (node :: trail).length ≤ component.count true
      ∧ (∃ below, depth = below + 1 ∧ ∀ u,
          arcsFollowed next component start below trail node s (next node) = (true, u) →
            walk next component start depth trail node s = (true, u.unblock node)
              ∧ ∀ v ∈ trail, u.blocked.get v = true ∧ (u.unblock node).blocked.get v = true)
      ∧ ∀ found u, walk next component start depth trail node s = (found, u) →
          u.truncated = false →
            Blocking next component start u trail
              ∧ (found = false → ∀ p : List (Fin n),
                (node :: (p ++ [start])).IsChain (Arc next) → (∀ v ∈ p, component.get v = true) →
                  ∃ v ∈ p, v ∈ trail) := by
  have hroot := hbegins.entry rfl
  have hentry := hcalled.entry hroot
  obtain ⟨below, rfl⟩ := Nat.exists_eq_add_one.mpr hentry.depth_pos
  refine ⟨⟨hentry.room, hentry.nodup_cons, hentry.blocking, hentry.blocking.block hentry.inside⟩,
    hentry.length_lt, ⟨below, rfl, fun u hfound => ?_⟩, fun found u hu hroom => ?_⟩
  · exact ⟨walk_eq_unblock hfound, fun v hv => hentry.release hfound hv⟩
  · have hexplores := (walk_progress hentry).explores (by rwa [hu])
    have hleft := hentry.left (by rwa [hu])
    rw [hu] at hexplores hleft
    refine ⟨hexplores.blocking, fun hnone p hway hp => ?_⟩
    exact hexplores.blocking.meets_trail hentry.inside (hleft hnone)
      (hentry.blocking.not_mem_trail hentry.free) hroot.inside hway hp

/-- Two nodes that lead to each other. The second one leads to two more that only lead back. -/
def spur : Fin 4 → List (Fin 4) :=
  (#v[[1], [2, 3, 0], [1], [2]] : Vector (List (Fin 4)) 4).get

/-- The last node is entered when the third one has been left waiting for the second. It leads
nowhere but there, so it is left waiting for the third. -/
theorem calls_keep_blocking_spur :
    ∃ s u, Begins .flooding spur (membersOf [0, 1, 2, 3]) 0 (fresh 4 1).restart 0 (fresh 4 1)
      ∧ Called spur (membersOf [0, 1, 2, 3]) 0 (fresh 4 1).restart 2 [1, 0] 3 s
      ∧ s.waiters = #v[[], [2], [], []]
      ∧ walk spur (membersOf [0, 1, 2, 3]) 0 2 [1, 0] 3 s = (false, u)
      ∧ u.waiters = #v[[], [2], [3], []]
      ∧ Blocking spur (membersOf [0, 1, 2, 3]) 0 u [1, 0]
      ∧ ∃ v ∈ [2, 1], v ∈ ([1, 0] : List (Fin 4)) := by
  have hbegins :
      Begins .flooding spur (membersOf [0, 1, 2, 3]) 0 (fresh 4 1).restart 0 (fresh 4 1) :=
    .here (by decide +kernel) rfl (cleared_restart _)
  have hsecond : Called spur (membersOf [0, 1, 2, 3]) 0 (fresh 4 1).restart 3 [0] 1
      ((fresh 4 1).restart.block 0) :=
    .inner .root (show spur 0 = [] ++ 1 :: [] by decide) rfl (by decide +kernel) (by decide)
  have hlast : Called spur (membersOf [0, 1, 2, 3]) 0 (fresh 4 1).restart 2 [1, 0] 3 _ :=
    .inner hsecond (show spur 1 = [2] ++ 3 :: [0] by decide) rfl (by decide +kernel) (by decide)
  obtain ⟨-, -, -, hreturn⟩ := calls_keep_blocking hbegins hlast
  obtain ⟨hblocking, hways⟩ := hreturn false _ rfl (by decide +kernel)
  have hback : (3 :: ([2, 1] ++ [0]) : List (Fin 4)).IsChain (Arc spur) :=
    .cons_cons (show 2 ∈ spur 3 by decide) (.cons_cons (show 1 ∈ spur 2 by decide)
      (.cons_cons (show 0 ∈ spur 1 by decide) (.singleton 0)))
  exact ⟨_, _, hbegins, hlast, by decide +kernel, rfl, by decide +kernel, hblocking,
    hways rfl [2, 1] hback (by decide)⟩

end Search

end Archmap

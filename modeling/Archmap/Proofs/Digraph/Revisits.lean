import Archmap.Proofs.Digraph.Joints

/-!
# Cycles that come back to a node

A cycle is asked for no more than joints that hold and an end where it starts, so it may pass a node
more than once, and then it lists the node each time. That happens exactly if it falls apart: begun
at a suitable edge it is one closed path and behind it another (`Cycle.nodes_nodup_iff`). Each of the
two may be a single edge from a node to itself.

The reason is that two paths make a cycle iff each starts where the other ends
(`Cycle.exists_append_iff`). Between two visits of a node both parts of the cycle are closed, and two
closed parts can only meet at a node which both start from.
-/

namespace Archmap

variable {N A : Type} {edges : List (Edge N A)} {cycle : Cycle N A} {front back : Path N A} {node : N}

/-- What is listed twice cuts a list into what stands in front of, between and behind. -/
theorem exists_split_of_not_nodup {α β : Type} {f : α → β} {xs : List α} (h : ¬(xs.map f).Nodup) :
    ∃ front a middle b back, xs = front ++ (a :: middle ++ b :: back) ∧ f a = f b := by
  induction xs with
  | nil => exact absurd List.nodup_nil h
  | cons x xs ih =>
      rw [List.map_cons, List.nodup_cons, not_and_or, not_not] at h
      rcases h with hmem | hrest
      · obtain ⟨y, hy, heq⟩ := List.mem_map.mp hmem
        obtain ⟨middle, back, rfl⟩ := List.append_of_mem hy
        exact ⟨[], x, middle, y, back, rfl, heq.symm⟩
      · obtain ⟨front, a, middle, b, back, rfl, heq⟩ := ih hrest
        exact ⟨x :: front, a, middle, b, back, rfl, heq⟩

/-! ## Two paths one behind the other -/

theorem Path.ends_of_append {path : Path N A} (h : path.edges = front.edges ++ back.edges) :
    path.origin = front.origin ∧ path.target = back.target := by
  have horigin : some path.origin = some front.origin := by
    rw [origin_eq, h, List.head?_append_of_ne_nil _ front.edges_ne_nil, origin_eq]
  have htarget : some path.target = some back.target := by
    rw [target_eq, h, List.getLast?_append_of_ne_nil _ back.edges_ne_nil, target_eq]
  exact ⟨Option.some.inj horigin, Option.some.inj htarget⟩

theorem Path.exists_append_iff :
    (∃ path : Path N A, path.edges = front.edges ++ back.edges) ↔ front.target = back.origin := by
  have hjoint : (∀ before ∈ front.edges.getLast?, ∀ after ∈ back.edges.head?,
      before.target = after.origin) ↔ front.target = back.origin := by
    simp [List.getLast?_eq_some_getLast front.edges_ne_nil,
      List.head?_eq_some_head back.edges_ne_nil, target, origin]
  rw [exists_edges_iff, connected_append, hjoint]
  simp [front.edges_ne_nil, front.connected, back.connected]

/-- Two paths make a cycle iff each starts where the other ends. -/
theorem Cycle.exists_append_iff :
    (∃ cycle : Cycle N A, cycle.edges = front.edges ++ back.edges) ↔
      front.target = back.origin ∧ back.target = front.origin := by
  constructor
  · rintro ⟨cycle, hedges⟩
    obtain ⟨horigin, htarget⟩ := Path.ends_of_append hedges
    exact ⟨Path.exists_append_iff.mp ⟨cycle.path, hedges⟩,
      htarget.symm.trans (cycle.closed.symm.trans horigin)⟩
  · rintro ⟨hjoint, hreturn⟩
    obtain ⟨path, hedges⟩ := Path.exists_append_iff.mpr hjoint
    obtain ⟨horigin, htarget⟩ := Path.ends_of_append hedges
    have hfront := List.length_pos_iff.mpr front.edges_ne_nil
    have hback := List.length_pos_iff.mpr back.edges_ne_nil
    have hlength : 2 ≤ path.length := by
      rw [Path.length, hedges, List.length_append]
      omega
    exact ⟨⟨path, hlength, horigin.trans (hreturn.symm.trans htarget.symm)⟩, hedges⟩

/-! ## Nodes listed twice -/

namespace Cycle

/-- The nodes are all ends of edges. -/
theorem mem_nodes_iff :
    node ∈ cycle.nodes ↔ ∃ edge ∈ cycle.edges, edge.origin = node ∨ edge.target = node := by
  obtain ⟨-, hends⟩ := exists_edges_iff.mp ⟨cycle, rfl⟩
  have htargets : node ∈ cycle.edges.map Edge.target ↔ node ∈ cycle.nodes := by
    rw [hends, List.mem_rotate, nodes]
  constructor
  · intro hnode
    obtain ⟨edge, hedge, horigin⟩ := List.mem_map.mp hnode
    exact ⟨edge, hedge, Or.inl horigin⟩
  · rintro ⟨edge, hedge, rfl | rfl⟩
    · exact List.mem_map_of_mem hedge
    · exact htargets.mp (List.mem_map_of_mem hedge)

/-- Two closed paths one behind the other pass a node twice, the one from which both start. -/
theorem not_nodup_of_closed_parts (hparts : front.edges ++ back.edges ~r cycle.edges)
    (hfront : front.origin = front.target) : ¬cycle.nodes.Nodup := by
  obtain ⟨turned, hturned⟩ := exists_edges_of_isRotated hparts
  obtain ⟨hjoint, -⟩ := exists_append_iff.mp ⟨turned, hturned⟩
  have hrotated : (front.edges ++ back.edges).map Edge.origin ~r cycle.nodes :=
    hparts.map Edge.origin
  rw [← hrotated.nodup_iff, List.map_append, List.nodup_append]
  rintro ⟨-, -, hapart⟩
  have horigin : ∀ path : Path N A, path.origin ∈ path.edges.map Edge.origin := fun path =>
    List.mem_map_of_mem (List.head_mem path.edges_ne_nil)
  exact hapart front.origin (horigin front) back.origin (horigin back) (hfront.trans hjoint)

theorem exists_closed_parts (h : ¬cycle.nodes.Nodup) :
    ∃ front back : Path N A, front.edges ++ back.edges ~r cycle.edges
      ∧ front.origin = front.target ∧ back.origin = back.target := by
  obtain ⟨before, a, middle, b, after, hedges, horigin⟩ := exists_split_of_not_nodup h
  have hrotated : (a :: middle) ++ (b :: after ++ before) ~r cycle.edges := by
    rw [hedges, ← List.append_assoc]
    exact List.isRotated_append
  obtain ⟨turned, hturned⟩ := exists_edges_of_isRotated hrotated
  have hconnected : Connected ((a :: middle) ++ (b :: after ++ before)) :=
    hturned ▸ turned.path.connected
  obtain ⟨hmiddle, hround, -⟩ := connected_append.mp hconnected
  let front : Path N A := ⟨a :: middle, List.cons_ne_nil _ _, hmiddle⟩
  let back : Path N A := ⟨b :: after ++ before, List.cons_ne_nil _ _, hround⟩
  obtain ⟨hjoint, hreturn⟩ : front.target = back.origin ∧ back.target = front.origin :=
    exists_append_iff.mp ⟨turned, hturned⟩
  exact ⟨front, back, hrotated, horigin.trans hjoint.symm, horigin.symm.trans hreturn.symm⟩

theorem nodes_nodup_iff : cycle.nodes.Nodup ↔
    ¬∃ front back : Path N A, front.edges ++ back.edges ~r cycle.edges
      ∧ front.origin = front.target ∧ back.origin = back.target := by
  constructor
  · rintro hnodup ⟨front, back, hparts, hfront, -⟩
    exact not_nodup_of_closed_parts hparts hfront hnodup
  · intro hparts
    by_contra hrevisits
    exact hparts (exists_closed_parts hrevisits)

end Cycle

/-- Among the nodes of a list of edges that is taken as a cycle are both ends of each edge and
nothing else. None is listed twice iff the list does not fall apart, begun at a suitable edge, into
one closed path and behind it another. -/
theorem cycleNodes_exact [DecidableEq N] (h : Cycle.ofEdges edges = .ok cycle) :
    (∀ node, node ∈ cycle.nodes ↔ ∃ edge ∈ edges, edge.origin = node ∨ edge.target = node)
      ∧ (cycle.nodes.Nodup ↔ ¬∃ front back : Path N A, front.edges ++ back.edges ~r edges
          ∧ front.origin = front.target ∧ back.origin = back.target) := by
  obtain rfl := Cycle.ofEdges_eq_ok_iff.mp h
  exact ⟨fun node => Cycle.mem_nodes_iff, Cycle.nodes_nodup_iff⟩

/-- From `A` to `B` and back, then to `C` and back. -/
def figureEight : List (Edge String String) :=
  [⟨"A", "B", []⟩, ⟨"B", "A", []⟩, ⟨"A", "C", []⟩, ⟨"C", "A", []⟩]

theorem cycleNodes_exact_figureEight : ∃ cycle, Cycle.ofEdges figureEight = .ok cycle
    ∧ "C" ∈ cycle.nodes ∧ ¬cycle.nodes.Nodup
    ∧ ∃ front back : Path String String, front.edges ++ back.edges ~r figureEight
      ∧ front.origin = front.target ∧ back.origin = back.target := by
  have hlisted : (Cycle.ofEdges figureEight).map Cycle.nodes = .ok ["A", "B", "A", "C"] := by decide
  cases hcycle : Cycle.ofEdges figureEight with
  | error e =>
      rw [hcycle] at hlisted
      cases hlisted
  | ok cycle =>
      rw [hcycle] at hlisted
      have hnodes : cycle.nodes = ["A", "B", "A", "C"] := Except.ok.inj hlisted
      have htwice : ¬cycle.nodes.Nodup := by
        rw [hnodes]
        decide
      obtain ⟨hends, hparts⟩ := cycleNodes_exact hcycle
      have hC : "C" ∈ cycle.nodes :=
        (hends "C").mpr ⟨⟨"A", "C", []⟩, by simp [figureEight], Or.inr rfl⟩
      exact ⟨cycle, rfl, hC, htwice, not_not.mp fun hwhole => htwice (hparts.mpr hwhole)⟩

/-- A list of edges that is taken as a cycle and lists a node twice. -/
theorem Cycle.nodes_figureEight :
    (Cycle.ofEdges figureEight).map Cycle.nodes = .ok ["A", "B", "A", "C"]
      ∧ ¬["A", "B", "A", "C"].Nodup := by
  decide

end Archmap

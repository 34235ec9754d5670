import Archmap.Proofs.Digraph.Enumeration

/-!
# The order of cycles

A search lists cycles in an order that can be told without it: each cycle is read as the positions
of its nodes, and these lists ascend (`positions_ascending`). A list that ascends is known by its
members. So of all that the additions to a graph say, only the order in which nodes are first
mentioned and the pairs of different nodes between which some edge is added have a say in which
nodes the cycles pass, in their order and in whether the limit is reached (`nodes_cyclesBy_congr`).
How often an edge is added, when, and what is attached to it makes no difference.
-/

namespace Archmap

open Archmap.Graph

/-- Renaming that keeps the order of elements keeps that of lists. -/
theorem map_lt_map {α β : Type} [LT α] [LT β] {f : α → β} (hf : ∀ a b, a < b → f a < f b)
    {xs ys : List α} (h : xs < ys) : xs.map f < ys.map f := by
  induction xs generalizing ys with
  | nil =>
      cases ys with
      | nil => exact absurd h (List.not_lt_nil _)
      | cons y ys => exact List.nil_lt_cons _ _
  | cons x xs ih =>
      cases ys with
      | nil => exact absurd h (List.not_lt_nil _)
      | cons y ys =>
          rw [List.map_cons, List.map_cons, List.cons_lt_cons_iff]
          rcases List.cons_lt_cons_iff.mp h with hless | ⟨rfl, hless⟩
          · exact Or.inl (hf x y hless)
          · exact Or.inr ⟨rfl, ih hless⟩

variable {N A B : Type} [DecidableEq N] {graph : Graph N A} {graph' : Graph N B}
  {split split' : Splitter}

namespace Graph

/-! ## Ascending positions -/

/-- The cycles returned pass the nodes of the first cycles that the search meets. -/
theorem nodes_cyclesBy (hsplit : split.Lawful) (graph : Graph N A) (max : Nat) :
    (graph.cyclesBy split max).cycles.map Cycle.nodes
      = ((circuits graph.successors).map (List.map graph.nodeAt)).take max := by
  rw [cyclesBy_eq hsplit, List.map_take, nodes_allCycles]

theorem limitReached_cyclesBy (hsplit : split.Lawful) (graph : Graph N A) (max : Nat) :
    (graph.cyclesBy split max).limitReached
      = decide (max < (circuits graph.successors).length) := by
  rw [cyclesBy_eq hsplit, length_allCycles]

theorem map_position_nodeAt (c : List (Fin graph.nodes.length)) :
    (c.map graph.nodeAt).map graph.position = c.map Fin.val := by
  rw [List.map_map]
  exact List.map_congr_left fun i _ => position_nodeAt i

/-- The cycles returned ascend strictly as lists of positions. -/
theorem positions_ascending (hsplit : split.Lawful) (graph : Graph N A) (max : Nat) :
    ((graph.cyclesBy split max).cycles.map fun cycle =>
      cycle.nodes.map graph.position).Pairwise (· < ·) := by
  have hpositions : ((graph.cyclesBy split max).cycles.map fun cycle =>
        cycle.nodes.map graph.position)
      = ((circuits graph.successors).take max).map (List.map Fin.val) := by
    have hnodes := congrArg (List.map (List.map graph.position)) (nodes_cyclesBy hsplit graph max)
    rw [List.map_map, ← List.map_take, List.map_map] at hnodes
    exact hnodes.trans (List.map_congr_left fun c _ => map_position_nodeAt c)
  rw [hpositions, List.pairwise_map]
  refine ((circuits_ascending successors_ascending).imp ?_).sublist (List.take_sublist max _)
  exact fun hless => map_lt_map (f := Fin.val) (fun _ _ h => h) hless

/-! ## What the order depends on -/

/-- Two graphs with the same nodes in the same order, and with edges between the same different
nodes, have cycles along the same nodes, in the same order. -/
theorem nodes_cyclesBy_congr (hsplit : split.Lawful) (hsplit' : split'.Lawful)
    (hnodes : graph.nodes = graph'.nodes)
    (hedges : ∀ a b, a ≠ b →
      ((graph.edge? a b).isSome = true ↔ (graph'.edge? a b).isSome = true)) (max : Nat) :
    (graph.cyclesBy split max).cycles.map Cycle.nodes
        = (graph'.cyclesBy split' max).cycles.map Cycle.nodes
      ∧ (graph.cyclesBy split max).limitReached = (graph'.cyclesBy split' max).limitReached := by
  rw [nodes_cyclesBy hsplit, nodes_cyclesBy hsplit', limitReached_cyclesBy hsplit,
    limitReached_cyclesBy hsplit']
  obtain ⟨nodes, links, hnodup, hlinks, hascending⟩ := graph
  obtain ⟨nodes', links', hnodup', hlinks', hascending'⟩ := graph'
  cases (show nodes = nodes' from hnodes)
  let g : Graph N A := ⟨nodes, links, hnodup, hlinks, hascending⟩
  let g' : Graph N B := ⟨nodes, links', hnodup', hlinks', hascending'⟩
  have hsuccessors : g.successors = g'.successors := successors_congr hedges
  constructor
  · exact congrArg (fun next => ((circuits next).map (List.map g.nodeAt)).take max) hsuccessors
  · exact congrArg (fun next => decide (max < (circuits next).length)) hsuccessors

theorem isSome_edge?_built (additions : List (Addition N A)) (a b : N) :
    ((built additions).edge? a b).isSome = true ↔ addedBetween additions a b ≠ [] := by
  rw [edge?_built]
  split <;> simp [*]

end Graph

/-- The cycles that a search returns ascend strictly if each is read as the list of its nodes'
positions in the order of first mention. Graphs whose additions mention the same nodes in the same
order and add edges between the same pairs of different nodes have cycles along the same nodes, in
the same order, and reach the limit or not together. -/
theorem cyclesBy_canonical (hsplit : split.Lawful) (additions : List (Addition N A)) (max : Nat) :
    (((built additions).cyclesBy split max).cycles.map fun cycle =>
        cycle.nodes.map (additions.flatMap Addition.mentions).eraseDups.idxOf).Pairwise (· < ·)
      ∧ ∀ {B : Type} {split' : Splitter}, split'.Lawful →
          ∀ additions' : List (Addition N B),
          (additions.flatMap Addition.mentions).eraseDups
            = (additions'.flatMap Addition.mentions).eraseDups →
          (∀ a b, a ≠ b → (addedBetween additions a b = [] ↔ addedBetween additions' a b = [])) →
          ((built additions).cyclesBy split max).cycles.map Cycle.nodes
              = ((built additions').cyclesBy split' max).cycles.map Cycle.nodes
            ∧ ((built additions).cyclesBy split max).limitReached
              = ((built additions').cyclesBy split' max).limitReached := by
  constructor
  · rw [← nodes_built]
    exact positions_ascending hsplit (built additions) max
  · intro B split' hsplit' additions' hmentions hpairs
    have hnodes : (built additions).nodes = (built additions').nodes := by
      rw [nodes_built, nodes_built, hmentions]
    refine nodes_cyclesBy_congr hsplit hsplit' hnodes (fun a b hne => ?_) max
    rw [isSome_edge?_built, isSome_edge?_built, ne_eq, ne_eq, hpairs a b hne]

/-- The pairs of `entwined`, with other attachments, in another order, with other repetitions and
another edge from a node to itself. -/
def entwinedAnew : List (Addition Nat String) :=
  [.node 0, .edge ⟨0, 0, []⟩, .node 1, .edge ⟨1, 2, ["c"]⟩, .edge ⟨2, 0, ["b"]⟩, .edge ⟨1, 0, []⟩,
    .edge ⟨1, 2, ["a"]⟩, .edge ⟨0, 1, []⟩]

theorem cyclesBy_canonical_entwined :
    Splitter.flooding.Lawful
      ∧ ((built entwined).cycles 2).cycles.map Cycle.nodes = [[0, 1], [0, 1, 2]]
      ∧ ((built entwinedAnew).cycles 2).cycles.map Cycle.nodes = [[0, 1], [0, 1, 2]]
      ∧ ((built entwinedAnew).cycles 1).limitReached = true := by
  have hmentions : (entwined.flatMap Addition.mentions).eraseDups
      = (entwinedAnew.flatMap Addition.mentions).eraseDups := by
    decide
  have hpairs : ∀ a b, a ≠ b →
      (addedBetween entwined a b = [] ↔ addedBetween entwinedAnew a b = []) := by
    intro a b hne
    simp [addedBetween, entwined, entwinedAnew, Addition.edges]
    omega
  have hcycles : ((built entwined).cycles 2).cycles.map Cycle.nodes = [[0, 1], [0, 1, 2]] := by
    decide +kernel
  have hlimit : ((built entwined).cycles 1).limitReached = true := by decide +kernel
  obtain ⟨-, hsame⟩ := cyclesBy_canonical flooding_lawful entwined 2
  obtain ⟨-, hsame'⟩ := cyclesBy_canonical flooding_lawful entwined 1
  refine ⟨flooding_lawful, hcycles, ?_, ?_⟩
  · exact (hsame flooding_lawful entwinedAnew hmentions hpairs).1.symm.trans hcycles
  · exact (hsame' flooding_lawful entwinedAnew hmentions hpairs).2.symm.trans hlimit

end Archmap

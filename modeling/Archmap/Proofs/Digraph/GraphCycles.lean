import Mathlib.Data.Set.Card
import Archmap.Proofs.Digraph.CycleSearch
import Archmap.Proofs.Digraph.Growth
import Archmap.Proofs.Digraph.Joints

/-!
# The cycles of a graph

What the search on positions means for a graph of nodes and edges. A list of nodes is an elementary
cycle of the graph iff the list of their positions is one for the search (`isElementary_map`), and
along the positions that the search finds there is always a cycle of edges (`cycleThrough?_spec`), so
nothing found is lost on the way back.
-/

namespace Archmap

open Archmap.Graph

variable {N A : Type} [DecidableEq N] {graph : Graph N A} {a b : N}

namespace Graph

/-! ## Positions and nodes -/

/-- The node at a position. -/
def nodeAt (graph : Graph N A) (i : Fin graph.nodes.length) : N := graph.nodes.get i

omit [DecidableEq N] in
theorem nodeAt_injective : Function.Injective graph.nodeAt :=
  List.nodup_iff_injective_get.mp graph.nodes_nodup

theorem position_nodeAt (i : Fin graph.nodes.length) : graph.position (graph.nodeAt i) = i :=
  List.get_idxOf graph.nodes_nodup i

omit [DecidableEq N] in
theorem exists_nodeAt (h : a ∈ graph.nodes) : ∃ i, graph.nodeAt i = a :=
  List.mem_iff_get.mp h

theorem edgeAt?_nodeAt (i j : Fin graph.nodes.length) :
    graph.edgeAt? i j = graph.edge? (graph.nodeAt i) (graph.nodeAt j) := by
  rw [edge?, position_nodeAt, position_nodeAt]

/-! ## Successors -/

theorem mem_successors {i j : Fin graph.nodes.length} : j ∈ graph.successors i ↔
    i ≠ j ∧ (graph.edge? (graph.nodeAt i) (graph.nodeAt j)).isSome = true := by
  simp only [successors, List.mem_pmap, List.mem_filter, decide_eq_true_eq]
  rw [edge?_eq, Option.isSome_map, List.find?_isSome]
  simp only [position_nodeAt, decide_eq_true_eq, Link.place_eq]
  constructor
  · rintro ⟨link, ⟨hlink, horigin, htarget⟩, rfl⟩
    refine ⟨fun heq => htarget (by rw [heq]), link, hlink, horigin, rfl⟩
  · rintro ⟨hne, link, hlink, horigin, htarget⟩
    refine ⟨link, ⟨hlink, horigin, fun heq => hne (Fin.ext ?_)⟩, Fin.ext htarget⟩
    omega

omit [DecidableEq N] in
theorem successors_ascending (i : Fin graph.nodes.length) :
    (graph.successors i).Pairwise (· < ·) := by
  rw [successors, List.pairwise_pmap]
  refine List.Pairwise.imp_of_mem ?_ (graph.links_ascending.filter _)
  intro link link' hlink hlink' hless _ _
  have horigin := (of_decide_eq_true (List.mem_filter.mp hlink).2).1
  have horigin' := (of_decide_eq_true (List.mem_filter.mp hlink').2).1
  simp only [Link.place, horigin, horigin', List.cons_lt_cons_iff, List.not_lt_nil, and_false,
    or_false, Nat.lt_irrefl, true_and, false_or] at hless
  exact Fin.lt_def.mpr hless

theorem successors_loopless (i : Fin graph.nodes.length) : i ∉ graph.successors i := by
  intro hmem
  exact (mem_successors.mp hmem).1 rfl

/-! ## Elementary cycles of nodes -/

/-- The nodes lead around an elementary cycle of the graph. -/
def IsElementary (graph : Graph N A) (nodes : List N) : Prop :=
  ElementaryCycle (fun a b => (graph.edge? a b).isSome = true) nodes

/-- The elementary cycles of the graph, without regard to the node from which each is listed. -/
def elementaryClasses (graph : Graph N A) : Set (Quotient (List.IsRotated.setoid N)) :=
  Quotient.mk _ '' Set.ofPred graph.IsElementary

theorem isElementary_map {c : List (Fin graph.nodes.length)} :
    graph.IsElementary (c.map graph.nodeAt) ↔ ElementaryCycle (Arc graph.successors) c := by
  rw [IsElementary, elementaryCycle_map nodeAt_injective]
  refine elementaryCycle_congr fun i j hne => ?_
  rw [Arc, mem_successors]
  exact (and_iff_right hne).symm

theorem IsElementary.exists_positions {nodes : List N} (h : graph.IsElementary nodes) :
    ∃ c : List (Fin graph.nodes.length), c.map graph.nodeAt = nodes := by
  have hmem : ∀ v ∈ nodes, v ∈ Set.range graph.nodeAt := by
    intro v hv
    obtain ⟨k, hk, rfl⟩ := List.getElem_of_mem hv
    have hk' : k < (nodes.zip (nodes.rotate 1)).length := by simpa using hk
    obtain ⟨edge, hedge⟩ := Option.isSome_iff_exists.mp (h.closed _ (List.getElem_mem hk'))
    rw [List.getElem_zip] at hedge
    exact exists_nodeAt (mem_of_edge? hedge).1
  have hrange : nodes ∈ Set.range (List.map graph.nodeAt) := by
    rw [Set.range_list_map]
    exact hmem
  exact hrange

end Graph

/-! ## Cycles of edges -/

theorem mapM_eq_some {α β : Type} {f : α → Option β} {xs : List α} {ys : List β}
    (h : xs.map f = ys.map some) : xs.mapM f = some ys := by
  induction xs generalizing ys with
  | nil =>
      cases ys with
      | nil => rfl
      | cons y ys => cases h
  | cons x xs ih =>
      cases ys with
      | nil => cases h
      | cons y ys =>
          obtain ⟨hx, hxs⟩ := List.cons.inj h
          rw [List.mapM_cons, hx, ih hxs]
          rfl

namespace Graph

/-- The edges that lead from position to position along a closed list of positions. -/
def edgesAlong (graph : Graph N A) (c : List (Fin graph.nodes.length)) : List (Option (Edge N A)) :=
  (c.zip (c.rotate 1)).map fun ends => graph.edge? (graph.nodeAt ends.1) (graph.nodeAt ends.2)

theorem exists_edgesAlong {c : List (Fin graph.nodes.length)}
    (h : ElementaryCycle (Arc graph.successors) c) :
    ∃ edges : List (Edge N A), edges.map some = graph.edgesAlong c
      ∧ edges.map Edge.origin = c.map graph.nodeAt
      ∧ edges.map Edge.target = (c.map graph.nodeAt).rotate 1 := by
  have hsome : ∀ ends ∈ c.zip (c.rotate 1),
      (graph.edge? (graph.nodeAt ends.1) (graph.nodeAt ends.2)).isSome = true :=
    fun ends hends => (mem_successors.mp (h.closed ends hends)).2
  obtain ⟨edges, hedges⟩ : ∃ edges : List (Edge N A), edges.map some = graph.edgesAlong c := by
    refine ⟨(graph.edgesAlong c).filterMap id, ?_⟩
    rw [List.map_filterMap_some_eq_filter_map_isSome, List.map_id, List.filter_eq_self]
    intro found hfound
    obtain ⟨ends, hends, rfl⟩ := List.mem_map.mp hfound
    exact hsome ends hends
  have hends : ∀ (f : Edge N A → N) (g : Fin graph.nodes.length × Fin graph.nodes.length → N),
      (∀ ends edge, graph.edge? (graph.nodeAt ends.1) (graph.nodeAt ends.2) = some edge →
        f edge = g ends) → edges.map f = (c.zip (c.rotate 1)).map g := by
    intro f g hfg
    have hmap : (edges.map some).map (Option.map f) = ((c.zip (c.rotate 1)).map g).map some := by
      rw [hedges, edgesAlong, List.map_map, List.map_map]
      refine List.map_congr_left fun ends hmem => ?_
      obtain ⟨edge, hedge⟩ := Option.isSome_iff_exists.mp (hsome ends hmem)
      simp [hedge, hfg ends edge hedge]
    rw [List.map_map] at hmap
    refine List.map_injective_iff.mpr (Option.some_injective N) ?_
    rw [List.map_map]
    exact hmap
  refine ⟨edges, hedges, ?_, ?_⟩
  · rw [hends Edge.origin (graph.nodeAt ∘ Prod.fst) fun _ _ hedge => (edge?_ends hedge).1,
      ← List.map_map, List.map_fst_zip (by simp)]
  · rw [hends Edge.target (graph.nodeAt ∘ Prod.snd) fun _ _ hedge => (edge?_ends hedge).2,
      ← List.map_map, List.map_snd_zip (by simp), List.map_rotate]

/-- Along the positions of an elementary cycle there is a cycle of the graph's edges. -/
theorem cycleThrough?_spec {c : List (Fin graph.nodes.length)}
    (h : ElementaryCycle (Arc graph.successors) c) :
    ∃ cycle, graph.cycleThrough? c = some cycle ∧ cycle.nodes = c.map graph.nodeAt
      ∧ cycle.edges.map some = graph.edgesAlong c := by
  obtain ⟨edges, hedges, horigins, htargets⟩ := exists_edgesAlong h
  have hlength : 2 ≤ edges.length := by
    have heq := congrArg List.length horigins
    rw [List.length_map, List.length_map] at heq
    exact heq ▸ h.two_le
  obtain ⟨cycle, hsame⟩ := Cycle.exists_edges_iff.mpr ⟨hlength, by rw [htargets, horigins]⟩
  have hcycle : Cycle.ofEdges edges = .ok cycle := Cycle.ofEdges_eq_ok_iff.mpr hsame
  refine ⟨cycle, ?_, by rw [Cycle.nodes, hsame, horigins], by rw [hsame, hedges]⟩
  have hpairs : c.drop 1 ++ c.take 1 = c.rotate 1 :=
    (List.rotate_eq_drop_append_take (Nat.le_of_succ_le h.two_le)).symm
  have hall : (c.zip (c.rotate 1)).mapM (fun ends => graph.edgeAt? ends.1 ends.2) = some edges := by
    refine mapM_eq_some ?_
    simp only [edgeAt?_nodeAt]
    exact hedges.symm
  simp only [cycleThrough?, hpairs]
  rw [show (c.zip (c.rotate 1)).mapM _ = some edges from hall, Option.bind_eq_bind,
    Option.bind_some, hcycle]
  rfl

end Graph

end Archmap

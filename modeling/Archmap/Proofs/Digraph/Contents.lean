import Archmap.Proofs.Digraph.Growth
import Archmap.Proofs.Rows

/-!
# What a graph lists

A graph lists its nodes in the order in which they were first mentioned (`mentioned_pairwise`), and a
node stays where it is whatever is added later (`position_built_append`). So the positions could as
well be kept in a table beside the nodes, with an entry for each node when it is added
(`positionsBy_nodes`).

An edge is listed iff the graph has it for its ends (`mem_edges`), and edges ascend by the positions
of these (`edges_ascending`); so there is never more than one for a pair (`filter_edges`).
-/

namespace Archmap

open Archmap.Graph

variable {N A : Type} [DecidableEq N] {graph : Graph N A} {node a b : N} {edge : Edge N A}
  {link : Link A}

/-! ## Nodes -/

theorem nodes_prefix_addNode : graph.nodes <+: (graph.addNode node).nodes := by
  rw [nodes_addNode]
  split
  · exact List.prefix_rfl
  · exact List.prefix_append _ _

/-- An addition leaves the nodes in front as they are. -/
theorem Addition.nodes_prefix (graph : Graph N A) (addition : Addition N A) :
    graph.nodes <+: (addition.apply graph).nodes := by
  cases addition with
  | node x => exact nodes_prefix_addNode
  | edge edge => exact nodes_prefix_addNode.trans nodes_prefix_addNode

theorem nodes_prefix_built (additions later : List (Addition N A)) :
    (built additions).nodes <+: (built (additions ++ later)).nodes := by
  induction later using List.reverseRecOn with
  | nil => simp only [List.append_nil, List.prefix_rfl]
  | append_singleton later addition ih =>
      rw [← List.append_assoc, built_concat]
      exact ih.trans (addition.nodes_prefix _)

theorem position_of_prefix {graph' : Graph N A} (h : graph.nodes <+: graph'.nodes)
    (ha : a ∈ graph.nodes) : graph'.position a = graph.position a := by
  obtain ⟨more, hmore⟩ := h
  rw [position, position, ← hmore, List.idxOf_append_of_mem ha]

/-- No addition moves a node. -/
theorem position_built_append {additions : List (Addition N A)} (later : List (Addition N A))
    (ha : a ∈ (built additions).nodes) :
    (built (additions ++ later)).position a = (built additions).position a :=
  position_of_prefix (nodes_prefix_built additions later) ha

/-- A node that is added gets the position behind all others, unless it has one. -/
theorem position_addNode : (graph.addNode node).position node
    = if node ∈ graph.nodes then graph.position node else graph.nodes.length := by
  split
  · rename_i hmem
    exact position_of_prefix nodes_prefix_addNode hmem
  · rename_i hnew
    rw [position, nodes_addNode, if_neg hnew, List.idxOf_append_of_notMem hnew,
      List.idxOf_cons_self, Nat.add_zero]

/-- A table into which each node is entered as it is added gives the positions. -/
theorem positionsBy_nodes (graph : Graph N A) (node : N) : positionsBy id graph.nodes node
    = if node ∈ graph.nodes then some (graph.position node) else none := by
  rw [positionsBy_eq (by simpa using graph.nodes_nodup)]
  split
  · rename_i hmem
    refine List.findIdx?_eq_some_iff_findIdx_eq.mpr ⟨position_lt graph hmem, ?_⟩
    simp only [position, List.idxOf, beq_eq_decide, id_eq]
  · rename_i hnew
    refine List.findIdx?_eq_none_iff.mpr fun x hx => decide_eq_false ?_
    rintro rfl
    exact hnew hx

/-! ## Edges -/

theorem position_of_getElem? {i : Nat} (h : graph.nodes[i]? = some a) : graph.position a = i := by
  obtain ⟨hlt, rfl⟩ := List.getElem?_eq_some_iff.mp h
  exact graph.nodes_nodup.idxOf_getElem i hlt

theorem place_of_edgeOf? (h : graph.edgeOf? link = some edge) :
    link.place = [graph.position edge.origin, graph.position edge.target] := by
  unfold edgeOf? at h
  split at h
  · rename_i origin target horigin htarget
    cases h
    rw [Link.place, position_of_getElem? horigin, position_of_getElem? htarget]
  · cases h

theorem edges_ascending :
    Ascending (fun edge => [graph.position edge.origin, graph.position edge.target])
      graph.edges := by
  rw [Ascending, edges, List.pairwise_filterMap]
  refine graph.links_ascending.imp fun hless edge hedge edge' hedge' => ?_
  rwa [place_of_edgeOf? hedge, place_of_edgeOf? hedge'] at hless

/-- The edges listed are those that the graph has for their ends. -/
theorem mem_edges : edge ∈ graph.edges ↔ graph.edge? edge.origin edge.target = some edge := by
  rw [edges, List.mem_filterMap, edge?, edgeAt?_eq, Option.bind_eq_some_iff]
  simp only [graph.links_ascending.find?_eq_some]
  constructor
  · rintro ⟨link, hlink, hedge⟩
    exact ⟨link, ⟨hlink, place_of_edgeOf? hedge⟩, hedge⟩
  · rintro ⟨link, ⟨hlink, -⟩, hedge⟩
    exact ⟨link, hlink, hedge⟩

/-- From one node to another there is one edge at most. -/
theorem filter_edges (graph : Graph N A) (a b : N) :
    (graph.edges.filter fun edge => edge.origin = a ∧ edge.target = b)
      = (graph.edge? a b).toList := by
  classical
  have hends : ∀ edge ∈ graph.edges, decide (edge.origin = a ∧ edge.target = b) = true ↔
      graph.edge? a b = some edge := by
    intro edge hedge
    rw [decide_eq_true_eq]
    constructor
    · rintro ⟨rfl, rfl⟩
      exact mem_edges.mp hedge
    · exact edge?_ends
  cases hfound : graph.edge? a b with
  | none =>
      rw [Option.toList_none, List.filter_eq_nil_iff]
      intro edge hedge
      rw [hends edge hedge, hfound]
      exact Option.some_ne_none edge |>.symm
  | some edge =>
      have hmem : edge ∈ graph.edges := by
        obtain ⟨rfl, rfl⟩ := edge?_ends hfound
        exact mem_edges.mpr hfound
      refine filter_eq_singleton edges_ascending.nodup hmem fun other hother => ?_
      rw [hends other hother, hfound, Option.some.injEq, eq_comm]

/-- What a graph lists after any additions to an empty one. Its nodes are what was mentioned, once
each and in the order of first mention; a node that is added now gets the position at which it is
listed, no later addition moves a node, and a table in which each node is entered when it is added
has its position. From one node to another it has an edge if any was added, with all that was
attached to the edges added between the two, in their order; it lists this edge once and no other
between them, and edges ascend by the positions of their ends. -/
theorem built_exact (additions : List (Addition N A)) :
    let graph := built additions
    let mentioned := additions.flatMap Addition.mentions
    graph.nodes.Nodup
      ∧ (∀ node, node ∈ graph.nodes ↔ node ∈ mentioned)
      ∧ graph.nodes.Pairwise (fun a b => mentioned.idxOf a < mentioned.idxOf b)
      ∧ (∀ node, (graph.addNode node).nodes[(graph.addNode node).position node]? = some node
          ∧ (graph.addNode node).position node
            = if node ∈ mentioned then graph.position node else graph.nodes.length)
      ∧ (∀ later, ∀ node ∈ graph.nodes,
          (built (additions ++ later)).position node = graph.position node)
      ∧ (∀ node, positionsBy id graph.nodes node
          = if node ∈ mentioned then some (graph.position node) else none)
      ∧ Ascending (fun edge => [graph.position edge.origin, graph.position edge.target])
          graph.edges
      ∧ ∀ a b,
          graph.edge? a b
              = (if addedBetween additions a b = [] then none
                else some ⟨a, b, (addedBetween additions a b).flatMap Edge.attachments⟩)
            ∧ (graph.edges.filter fun edge => edge.origin = a ∧ edge.target = b)
              = (graph.edge? a b).toList := by
  intro graph mentioned
  have hmentioned : ∀ node, node ∈ graph.nodes ↔ node ∈ mentioned := by
    intro node
    rw [nodes_built, List.mem_eraseDups]
  refine ⟨graph.nodes_nodup, hmentioned, mentioned_pairwise additions, fun node => ⟨?_, ?_⟩,
    fun later node hnode => position_built_append later hnode, fun node => ?_, edges_ascending,
    fun a b => ⟨edge?_built additions a b, filter_edges graph a b⟩⟩
  · exact nodes_position (mem_addNode graph node)
  · simp only [position_addNode, hmentioned]
  · simp only [positionsBy_nodes, hmentioned]

end Archmap

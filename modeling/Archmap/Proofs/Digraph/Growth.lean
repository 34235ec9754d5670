import Mathlib.Data.List.Find
import Mathlib.Data.List.Induction
import Archmap.Digraph.Graph
import Archmap.Proofs.Ascending

/-!
# What a graph holds

A graph is grown by additions of nodes and edges. Its nodes are what the additions mention, in the
order in which they first mention it (`nodes_built`, `mentioned_pairwise`). Its edge for a pair of
nodes joins the attachments of all edges added for the pair (`edge?_built`).

Both follow from what one addition does, and the only care that this takes is with positions: a node
that the graph lacks has a position as well, one that no link can mention, and it stays without
links when it is added.
-/

namespace Archmap

open Archmap.Graph

variable {N A : Type} [DecidableEq N] {graph : Graph N A} {node a b : N} {edge : Edge N A}

/-! ## Finding an edge -/

theorem Link.place_eq {link : Link A} {origin target : Nat} :
    link.place = [origin, target] ↔ link.origin = origin ∧ link.target = target := by
  simp [Link.place]

theorem mem_of_position_lt (h : graph.position a < graph.nodes.length) : a ∈ graph.nodes :=
  List.idxOf_lt_length_iff.mp h

theorem nodes_position (h : a ∈ graph.nodes) : graph.nodes[graph.position a]? = some a :=
  List.getElem?_idxOf h

theorem position_inj (h : a ∈ graph.nodes) : graph.position a = graph.position b ↔ a = b :=
  List.idxOf_inj h

omit [DecidableEq N] in
theorem edgeAt?_eq (origin target : Nat) :
    graph.edgeAt? origin target
      = (graph.links.find? fun link => link.place = [origin, target]).bind graph.edgeOf? := by
  simp only [edgeAt?, Link.place_eq]

/-- The edge from one node to another has the attachments of the link between their positions. -/
theorem edge?_eq : graph.edge? a b
    = (graph.links.find? fun link => link.place = [graph.position a, graph.position b]).map
        fun link => ⟨a, b, link.attachments⟩ := by
  rw [edge?, edgeAt?_eq]
  cases hfind : graph.links.find? fun link => link.place = [graph.position a, graph.position b] with
  | none => rfl
  | some link =>
      have hplace := List.find?_some hfind
      rw [decide_eq_true_eq, Link.place_eq] at hplace
      obtain ⟨horigin, htarget⟩ := hplace
      obtain ⟨hlt, hlt'⟩ := graph.links_lt link (List.mem_of_find?_eq_some hfind)
      have ha := nodes_position (mem_of_position_lt (horigin ▸ hlt))
      have hb := nodes_position (mem_of_position_lt (htarget ▸ hlt'))
      simp [edgeOf?, horigin, htarget, ha, hb]

theorem edge?_ends (h : graph.edge? a b = some edge) : edge.origin = a ∧ edge.target = b := by
  rw [edge?_eq, Option.map_eq_some_iff] at h
  obtain ⟨link, -, rfl⟩ := h
  exact ⟨rfl, rfl⟩

theorem mem_of_edge? (h : graph.edge? a b = some edge) : a ∈ graph.nodes ∧ b ∈ graph.nodes := by
  rw [edge?_eq, Option.map_eq_some_iff] at h
  obtain ⟨link, hfind, -⟩ := h
  have hplace := List.find?_some hfind
  rw [decide_eq_true_eq, Link.place_eq] at hplace
  obtain ⟨hlt, hlt'⟩ := graph.links_lt link (List.mem_of_find?_eq_some hfind)
  exact ⟨mem_of_position_lt (hplace.1 ▸ hlt), mem_of_position_lt (hplace.2 ▸ hlt')⟩

/-! ## Adding a node -/

theorem nodes_addNode : (graph.addNode node).nodes
    = if node ∈ graph.nodes then graph.nodes else graph.nodes ++ [node] := by
  unfold addNode
  split <;> rfl

theorem links_addNode : (graph.addNode node).links = graph.links := by
  unfold addNode
  split <;> rfl

/-- A link mentions the position of a node after the addition of another iff it did before. -/
theorem eq_position_addNode {i : Nat} (hi : i < graph.nodes.length) :
    i = (graph.addNode node).position a ↔ i = graph.position a := by
  unfold position
  rw [nodes_addNode]
  split
  · rfl
  · rw [List.idxOf_append]
    split
    · rfl
    · rename_i ha
      have hlength := List.idxOf_eq_length ha
      omega

theorem edge?_addNode : (graph.addNode node).edge? a b = graph.edge? a b := by
  rw [edge?_eq, edge?_eq, links_addNode]
  congr 1
  refine List.find?_congr fun link hlink => ?_
  obtain ⟨hlt, hlt'⟩ := graph.links_lt link hlink
  rw [decide_eq_decide, Link.place_eq, Link.place_eq, eq_position_addNode hlt,
    eq_position_addNode hlt']

/-! ## Adding an edge -/

theorem nodes_addEdge :
    (graph.addEdge edge).nodes = ((graph.addNode edge.origin).addNode edge.target).nodes := rfl

/-- The attachments of an edge that may be missing. -/
def attachmentsOf (found : Option (Edge N A)) : List A :=
  (found.map Edge.attachments).getD []

theorem edge?_addEdge : (graph.addEdge edge).edge? a b
    = if edge.origin = a ∧ edge.target = b then
        some ⟨a, b, attachmentsOf (graph.edge? a b) ++ edge.attachments⟩
      else graph.edge? a b := by
  have hbefore : ((graph.addNode edge.origin).addNode edge.target).edge? a b = graph.edge? a b := by
    rw [edge?_addNode, edge?_addNode]
  generalize hready : (graph.addNode edge.origin).addNode edge.target = ready at hbefore
  have horigin : edge.origin ∈ ready.nodes :=
    hready ▸ mem_addNode_of_mem _ (mem_addNode graph edge.origin)
  have htarget : edge.target ∈ ready.nodes := hready ▸ mem_addNode _ edge.target
  have hafter : (graph.addEdge edge).edge? a b
      = ((insertBy Link.place Link.merge ⟨ready.position edge.origin, ready.position edge.target,
          edge.attachments⟩ ready.links).find? fun link =>
            link.place = [ready.position a, ready.position b]).map
          fun link => ⟨a, b, link.attachments⟩ := by
    rw [edge?_eq, ← hready]
    rfl
  rw [hafter, find?_insertBy (fun _ => rfl) ready.links_ascending, ← hbefore, edge?_eq]
  have hplace : Link.place (⟨ready.position edge.origin, ready.position edge.target,
      edge.attachments⟩ : Link A) = [ready.position a, ready.position b] ↔
      edge.origin = a ∧ edge.target = b := by
    rw [Link.place_eq, position_inj horigin, position_inj htarget]
  simp only [hplace]
  split
  · cases ready.links.find? fun link => link.place = [ready.position a, ready.position b] <;> rfl
  · rfl

/-! ## Whole sequences of additions -/

/-- One step in which a graph grows. -/
inductive Addition (N A : Type) where
  | node (node : N)
  | edge (edge : Edge N A)

namespace Addition

/-- The nodes that are added unless they are there, in order. -/
def mentions : Addition N A → List N
  | .node x => [x]
  | .edge edge => [edge.origin, edge.target]

/-- The edge that is added, if one is. -/
def edges : Addition N A → List (Edge N A)
  | .node _ => []
  | .edge edge => [edge]

/-- The graph grown by one addition. -/
def apply (graph : Graph N A) : Addition N A → Graph N A
  | .node x => graph.addNode x
  | .edge edge => graph.addEdge edge

/-- The same addition, but of an edge from a node to itself only the node is added. -/
def withoutLoop : Addition N A → Addition N A
  | .node x => .node x
  | .edge edge => if edge.isSelfLoop then .node edge.origin else .edge edge

end Addition

/-- The graph grown from nothing by additions. -/
def Graph.built (additions : List (Addition N A)) : Graph N A :=
  additions.foldl Addition.apply Graph.empty

/-- The edges added from one node to another. -/
def addedBetween (additions : List (Addition N A)) (a b : N) : List (Edge N A) :=
  (additions.flatMap Addition.edges).filter fun edge => edge.origin = a ∧ edge.target = b

theorem built_concat (additions : List (Addition N A)) (addition : Addition N A) :
    built (additions ++ [addition]) = addition.apply (built additions) :=
  List.foldl_concat ..

theorem addedBetween_concat (additions : List (Addition N A)) (addition : Addition N A) (a b : N) :
    addedBetween (additions ++ [addition]) a b
      = addedBetween additions a b
        ++ addition.edges.filter fun edge => edge.origin = a ∧ edge.target = b := by
  rw [addedBetween, List.flatMap_append, List.filter_append, List.flatMap_singleton, addedBetween]

theorem eraseDups_concat (xs : List N) (x : N) :
    (xs ++ [x]).eraseDups = if x ∈ xs then xs.eraseDups else xs.eraseDups ++ [x] := by
  rw [List.eraseDups_append]
  by_cases hx : x ∈ xs <;> simp [List.removeAll, List.eraseDups_cons, hx]

theorem nodes_addNode_of_eq {mentioned : List N} (h : graph.nodes = mentioned.eraseDups) (x : N) :
    (graph.addNode x).nodes = (mentioned ++ [x]).eraseDups := by
  rw [nodes_addNode, eraseDups_concat, h]
  simp only [List.mem_eraseDups]

theorem nodes_built (additions : List (Addition N A)) :
    (built additions).nodes = (additions.flatMap Addition.mentions).eraseDups := by
  induction additions using List.reverseRecOn with
  | nil => rfl
  | append_singleton additions addition ih =>
      rw [built_concat, List.flatMap_append, List.flatMap_singleton]
      cases addition with
      | node x => exact nodes_addNode_of_eq ih x
      | edge edge =>
          rw [Addition.apply, nodes_addEdge,
            nodes_addNode_of_eq (nodes_addNode_of_eq ih edge.origin) edge.target]
          simp [Addition.mentions]

theorem edge?_built (additions : List (Addition N A)) (a b : N) :
    (built additions).edge? a b
      = if addedBetween additions a b = [] then none
        else some ⟨a, b, (addedBetween additions a b).flatMap Edge.attachments⟩ := by
  induction additions using List.reverseRecOn with
  | nil => simp [built, addedBetween, edge?_eq, Graph.empty]
  | append_singleton additions addition ih =>
      rw [built_concat, addedBetween_concat]
      cases addition with
      | node x => rw [Addition.apply, edge?_addNode, ih, Addition.edges, List.filter_nil,
          List.append_nil]
      | edge edge =>
          rw [Addition.apply, edge?_addEdge, ih, Addition.edges]
          by_cases hends : edge.origin = a ∧ edge.target = b
          · rw [if_pos hends, List.filter_cons_of_pos (by simpa using hends), List.filter_nil]
            by_cases hnone : addedBetween additions a b = [] <;> simp [attachmentsOf, hnone]
          · rw [if_neg hends, List.filter_cons_of_neg (by simpa using hends), List.filter_nil,
              List.append_nil]

/-! ## Order of mention -/

/-- Where repetitions are left out, what comes later occurs later for the first time. -/
theorem eraseDups_pairwise_idxOf (xs : List N) :
    xs.eraseDups.Pairwise fun a b => xs.idxOf a < xs.idxOf b := by
  induction xs using List.reverseRecOn with
  | nil => exact List.Pairwise.nil
  | append_singleton xs x ih =>
      have hbefore : ∀ {y}, y ∈ xs.eraseDups → (xs ++ [x]).idxOf y = xs.idxOf y := fun hy =>
        List.idxOf_append_of_mem (List.mem_eraseDups.mp hy)
      have hkept : xs.eraseDups.Pairwise fun a b => (xs ++ [x]).idxOf a < (xs ++ [x]).idxOf b := by
        refine ih.imp_of_mem fun ha hb hless => ?_
        rwa [hbefore ha, hbefore hb]
      rw [eraseDups_concat]
      split
      · exact hkept
      · rename_i hnew
        refine List.pairwise_append.mpr ⟨hkept, List.pairwise_singleton _ _, fun y hy z hz => ?_⟩
        obtain rfl := List.mem_singleton.mp hz
        rw [hbefore hy, List.idxOf_append_of_notMem hnew]
        have hlt := List.idxOf_lt_length_of_mem (List.mem_eraseDups.mp hy)
        omega

theorem mentioned_pairwise (additions : List (Addition N A)) :
    (built additions).nodes.Pairwise fun a b =>
      (additions.flatMap Addition.mentions).idxOf a
        < (additions.flatMap Addition.mentions).idxOf b := by
  rw [nodes_built]
  exact eraseDups_pairwise_idxOf _

/-- A node before another was mentioned before it. -/
theorem mentioned_before {additions : List (Addition N A)} (ha : a ∈ (built additions).nodes)
    (h : (built additions).position a ≤ (built additions).position b) :
    (additions.flatMap Addition.mentions).idxOf a
      ≤ (additions.flatMap Addition.mentions).idxOf b := by
  by_cases hb : b ∈ (built additions).nodes
  · rcases Nat.eq_or_lt_of_le h with heq | hlt
    · rw [(position_inj ha).mp heq]
    · have hless := List.pairwise_iff_getElem.mp (mentioned_pairwise additions) _ _
        (position_lt _ ha) (position_lt _ hb) hlt
      simp only [position, List.getElem_idxOf] at hless
      exact Nat.le_of_lt hless
  · rw [nodes_built, List.mem_eraseDups] at hb
    rw [List.idxOf_eq_length hb]
    exact List.idxOf_le_length

/-! ## Leaving out edges from a node to itself -/

theorem addNode_nodes_congr {graph' : Graph N A} (h : graph.nodes = graph'.nodes) :
    (graph.addNode node).nodes = (graph'.addNode node).nodes := by
  rw [nodes_addNode, nodes_addNode, h]

theorem nodes_built_withoutLoop (additions : List (Addition N A)) :
    (built (additions.map Addition.withoutLoop)).nodes = (built additions).nodes := by
  induction additions using List.reverseRecOn with
  | nil => rfl
  | append_singleton additions addition ih =>
      rw [List.map_append, List.map_singleton, built_concat, built_concat]
      cases addition with
      | node x => exact addNode_nodes_congr ih
      | edge edge =>
          rw [Addition.withoutLoop]
          split
          · rename_i hloop
            have heq : edge.origin = edge.target := by simpa [Edge.isSelfLoop] using hloop
            have hmem : edge.target ∈ ((built additions).addNode edge.origin).nodes :=
              heq ▸ mem_addNode _ _
            have htwice : ((built additions).addEdge edge).nodes
                = ((built additions).addNode edge.origin).nodes := by
              rw [nodes_addEdge, nodes_addNode, if_pos hmem]
            rw [Addition.apply, Addition.apply, htwice]
            exact addNode_nodes_congr ih
          · exact addNode_nodes_congr (addNode_nodes_congr ih)

theorem edge?_built_withoutLoop (additions : List (Addition N A)) (hne : a ≠ b) :
    (built (additions.map Addition.withoutLoop)).edge? a b = (built additions).edge? a b := by
  have hsame : addedBetween (additions.map Addition.withoutLoop) a b
      = addedBetween additions a b := by
    simp only [addedBetween, List.filter_flatMap, List.flatMap_map]
    refine List.flatMap_congr fun addition _ => ?_
    cases addition with
    | node x => rfl
    | edge edge =>
        rw [Addition.withoutLoop]
        split
        · rename_i hloop
          have hends : ¬(edge.origin = a ∧ edge.target = b) := by
            rintro ⟨rfl, rfl⟩
            exact hne (by simpa [Edge.isSelfLoop] using hloop)
          simp [Addition.edges, hends]
        · rfl
  rw [edge?_built, edge?_built, hsame]

end Archmap

import Archmap.Ascending
import Archmap.Digraph.Path
import Archmap.Digraph.CycleSearch

/-!
# Directed graphs

A graph lists its nodes in the order in which they were first mentioned and has at most one edge per
ordered pair of nodes. The position of a node never changes, so an edge is stored as a link between
two positions, and links ascend by these. An edge added for a pair that has one already only adds
its attachments.
-/

namespace Archmap

/-- An edge stored by the positions of its ends. -/
structure Link (A : Type) where
  origin : Nat
  target : Nat
  attachments : List A
  deriving DecidableEq

/-- The positions of the ends, by which links are ordered. -/
def Link.place (link : Link A) : List Nat := [link.origin, link.target]

/-- Joins the attachments of two links between the same nodes. -/
def Link.merge (old new : Link A) : Link A :=
  { old with attachments := old.attachments ++ new.attachments }

structure Graph (N A : Type) where
  nodes : List N
  links : List (Link A)
  nodes_nodup : nodes.Nodup
  links_lt : ∀ link ∈ links, link.origin < nodes.length ∧ link.target < nodes.length
  links_ascending : Ascending Link.place links

namespace Graph

def empty : Graph N A :=
  ⟨[], [], .nil, by simp, .nil⟩

/-! ## Growing -/

/-- The position of a node; the number of nodes for a node that the graph does not have. -/
def position [DecidableEq N] (graph : Graph N A) (node : N) : Nat :=
  graph.nodes.idxOf node

/-- Adds a node at the end unless the graph has it. -/
def addNode [DecidableEq N] (graph : Graph N A) (node : N) : Graph N A :=
  if present : node ∈ graph.nodes then graph
  else {
    nodes := graph.nodes ++ [node]
    links := graph.links
    nodes_nodup := by
      refine List.nodup_append.2 ⟨graph.nodes_nodup, by simp, fun a ha b hb => ?_⟩
      rintro rfl
      exact present (List.mem_singleton.1 hb ▸ ha)
    links_lt := fun link h => by
      have bounds := graph.links_lt link h
      simp only [List.length_append, List.length_singleton]
      omega
    links_ascending := graph.links_ascending }

theorem mem_addNode [DecidableEq N] (graph : Graph N A) (node : N) :
    node ∈ (graph.addNode node).nodes := by
  unfold addNode
  split <;> simp_all

theorem mem_addNode_of_mem [DecidableEq N] (graph : Graph N A) {node other : N}
    (h : other ∈ graph.nodes) : other ∈ (graph.addNode node).nodes := by
  unfold addNode
  split <;> simp_all

theorem position_lt [DecidableEq N] (graph : Graph N A) {node : N} (h : node ∈ graph.nodes) :
    graph.position node < graph.nodes.length :=
  List.idxOf_lt_length_of_mem h

theorem insertBy_lt {size : Nat} {link : Link A}
    (here : link.origin < size ∧ link.target < size) {links : List (Link A)}
    (there : ∀ l ∈ links, l.origin < size ∧ l.target < size) :
    ∀ l ∈ insertBy Link.place Link.merge link links, l.origin < size ∧ l.target < size := by
  induction links with
  | nil => simpa [insertBy] using here
  | cons first rest ih =>
    have ih := ih fun l h => there l (List.mem_cons_of_mem _ h)
    have front := there first List.mem_cons_self
    intro l h
    simp only [insertBy] at h
    split at h
    · rcases List.mem_cons.1 h with rfl | h
      · exact here
      · exact there l h
    · split at h
      · rcases List.mem_cons.1 h with rfl | h
        · exact front
        · exact ih l h
      · rcases List.mem_cons.1 h with rfl | h
        · exact front
        · exact there l (List.mem_cons_of_mem _ h)

/-- Adds an edge and, in front of it, its ends: first the origin, then the target. -/
def addEdge [DecidableEq N] (graph : Graph N A) (edge : Edge N A) : Graph N A :=
  let ready := (graph.addNode edge.origin).addNode edge.target
  let link : Link A :=
    ⟨ready.position edge.origin, ready.position edge.target, edge.attachments⟩
  { nodes := ready.nodes
    links := insertBy Link.place Link.merge link ready.links
    nodes_nodup := ready.nodes_nodup
    links_lt := insertBy_lt
      ⟨ready.position_lt (mem_addNode_of_mem _ (mem_addNode graph _)),
        ready.position_lt (mem_addNode _ _)⟩ ready.links_lt
    links_ascending := ascending_insertBy (by intros; rfl) ready.links_ascending }

/-! ## Edges -/

/-- The edge that a link stands for. -/
def edgeOf? (graph : Graph N A) (link : Link A) : Option (Edge N A) :=
  match graph.nodes[link.origin]?, graph.nodes[link.target]? with
  | some origin, some target => some ⟨origin, target, link.attachments⟩
  | _, _ => none

/-- The edges by the positions of their origins and then of their targets. -/
def edges (graph : Graph N A) : List (Edge N A) :=
  graph.links.filterMap graph.edgeOf?

/-- The edge from the node at one position to the node at another. -/
def edgeAt? (graph : Graph N A) (origin target : Nat) : Option (Edge N A) :=
  (graph.links.find? fun link => link.origin = origin ∧ link.target = target).bind graph.edgeOf?

def edge? [DecidableEq N] (graph : Graph N A) (origin target : N) : Option (Edge N A) :=
  graph.edgeAt? (graph.position origin) (graph.position target)

/-! ## Cycles -/

/-- The positions of the nodes to which an edge leads from the node at a position, ascending. Edges
from a node to itself do not count. -/
def successors (graph : Graph N A) (origin : Fin graph.nodes.length) :
    List (Fin graph.nodes.length) :=
  let leaving := graph.links.filter fun link => link.origin = origin.val ∧ link.target ≠ origin.val
  leaving.pmap (fun link lt => ⟨link.target, lt⟩)
    fun link h => (graph.links_lt link (List.mem_filter.1 h).1).2

/-- The cycle through the nodes at the given positions, if the graph has its edges. -/
def cycleThrough? [DecidableEq N] (graph : Graph N A)
    (positions : List (Fin graph.nodes.length)) : Option (Cycle N A) := do
  let pairs := positions.zip (positions.drop 1 ++ positions.take 1)
  let edges ← pairs.mapM fun (origin, target) => graph.edgeAt? origin target
  (Cycle.ofEdges edges).toOption

end Graph

/-- The cycles found by a search with a limit, and whether there are more. -/
structure Cycles (N A : Type) where
  cycles : List (Cycle N A)
  limitReached : Bool

/-- The elementary cycles of a graph, at most `max` of them. Edges from a node to itself are no
cycles. The search splits the graph by the given splitter. -/
def Graph.cyclesBy [DecidableEq N] (split : Splitter) (graph : Graph N A) (max : Nat) :
    Cycles N A :=
  let next := Vector.ofFn graph.successors
  let (positions, limitReached) := elementaryCycles split next.get max
  ⟨positions.filterMap graph.cycleThrough?, limitReached⟩

/-- The elementary cycles of a graph, at most `max` of them. -/
def Graph.cycles [DecidableEq N] (graph : Graph N A) (max : Nat) : Cycles N A :=
  graph.cyclesBy .flooding max

end Archmap

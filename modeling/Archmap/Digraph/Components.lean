import Archmap.Digraph.Flood

/-!
# Strongly connected components

The search for cycles needs a graph split into strongly connected components, over and over again:
each time only the nodes from some start on count, and the next component to search is the one with
the smallest node. It does not matter how the components are found or in which order they are
listed, so the way to do it is an argument, a *splitter*. One splitter is given here. It floods the
graph from a node along its arcs and against them.
-/

namespace Archmap

/-- A way to split a graph into its strongly connected components, listed in any order. -/
abbrev Splitter := (n : Nat) → (next : Fin n → List (Fin n)) → List (List (Fin n))

/-! ## Splitting by flooding -/

/-- The arcs in the opposite direction. -/
def reversed (next : Fin n → List (Fin n)) (node : Fin n) : List (Fin n) :=
  (List.finRange n).filter fun v => (next v).contains node

/-- The nodes that can be reached from a node and reach it. -/
def componentOf (next previous : Fin n → List (Fin n)) (node : Fin n) : List (Fin n) :=
  let ahead := reachable next (Vector.replicate n true) node
  let behind := reachable previous (Vector.replicate n true) node
  (List.finRange n).filter fun v => ahead.get v && behind.get v

/-- Splits a graph by taking the component of each node that is in none taken before. -/
def Splitter.flooding : Splitter := fun n next =>
  let previous := Vector.ofFn (reversed next)
  (List.finRange n).foldl (fun components node =>
    if components.any (·.contains node) then components
    else componentOf next previous.get node :: components) []

/-! ## The component to search next -/

/-- The node that is counted as `node` when counting begins at `start`. -/
def raise {start : Nat} (node : Fin (n - start)) : Fin n :=
  ⟨start + node, by omega⟩

/-- How a node is counted when counting begins at `start`, if it is not below. -/
def lower? (start : Nat) (node : Fin n) : Option (Fin (n - start)) :=
  if h : start ≤ node then some ⟨node - start, by omega⟩ else none

/-- The graph on the nodes from `start` on, counted from there. -/
def upper (next : Fin n → List (Fin n)) (start : Nat) (node : Fin (n - start)) :
    List (Fin (n - start)) :=
  (next (raise node)).filterMap (lower? start)

/-- The components of more than one node of the graph from `start` on. -/
def bigComponents (split : Splitter) (next : Fin n → List (Fin n)) (start : Nat) :
    List (List (Fin n)) :=
  ((split (n - start) (upper next start)).filter (1 < ·.length)).map (·.map raise)

/-- Among these components the one with the smallest node, behind that node. -/
def leastComponent? (split : Splitter) (next : Fin n → List (Fin n)) (start : Nat) :
    Option (Fin n × List (Fin n)) :=
  let rooted := (bigComponents split next start).filterMap fun component =>
    (component.minOn? id).map (·, component)
  rooted.minOn? Prod.fst

end Archmap

import Archmap.Digraph.Edge

/-!
# Paths and cycles

A path is a non-empty list of edges of which each starts where the one before it ends; a cycle is a
path of at least two edges that ends where it starts. Lists that are neither are refused with the
first thing that is wrong: emptiness, then the first broken joint, then the length, then the end.
-/

namespace Archmap

/-- Every edge starts where the one before it ends. -/
def Connected : List (Edge N A) → Prop
  | a :: b :: rest => a.target = b.origin ∧ Connected (b :: rest)
  | _ => True

/-- The position of the first edge that does not start where the one before it ends. -/
def firstBreak? [DecidableEq N] : List (Edge N A) → Option Nat
  | a :: b :: rest =>
    if a.target = b.origin then (firstBreak? (b :: rest)).map (· + 1) else some 1
  | _ => none

theorem firstBreak?_eq_none_iff [DecidableEq N] {edges : List (Edge N A)} :
    firstBreak? edges = none ↔ Connected edges := by
  fun_induction firstBreak? edges <;> simp_all [Connected]

/-- A non-empty connected list of edges. -/
structure Path (N A : Type) where
  edges : List (Edge N A)
  edges_ne_nil : edges ≠ []
  connected : Connected edges

/-- Why a list of edges closes to no cycle. -/
inductive CycleFault where
  | noEdges
  | tooShort
  | notClosed
  deriving DecidableEq

/-- Why a list of edges is no path or no cycle. -/
inductive PathError where
  | empty
  /-- The edge at this position is the first that does not start where the one before it ends. -/
  | notConnected (index : Nat)
  | notACycle (fault : CycleFault)
  deriving DecidableEq

def CycleFault.reason : CycleFault → String
  | .noEdges => "there are no edges"
  | .tooShort => "a cycle needs at least two edges"
  | .notClosed => "the last edge does not end at the origin of the first"

def PathError.message : PathError → String
  | .empty => "A path needs at least one edge"
  | .notConnected index =>
    "Edges are not connected: edge " ++ toString index
      ++ " does not start where the previous edge ends"
  | .notACycle fault => "Edges do not form a cycle: " ++ fault.reason

namespace Path

def ofEdges [DecidableEq N] (edges : List (Edge N A)) : Except PathError (Path N A) :=
  if edges_ne_nil : edges = [] then .error .empty
  else
    match broken : firstBreak? edges with
    | some index => .error (.notConnected index)
    | none => .ok ⟨edges, edges_ne_nil, firstBreak?_eq_none_iff.1 broken⟩

def origin (path : Path N A) : N :=
  (path.edges.head path.edges_ne_nil).origin

def target (path : Path N A) : N :=
  (path.edges.getLast path.edges_ne_nil).target

/-- The nodes along the path, its ends included. -/
def nodes (path : Path N A) : List N :=
  path.edges.map Edge.origin ++ [path.target]

def length (path : Path N A) : Nat :=
  path.edges.length

end Path

/-- A path of at least two edges that ends where it starts. -/
structure Cycle (N A : Type) where
  path : Path N A
  two_le_length : 2 ≤ path.length
  closed : path.origin = path.target

namespace Cycle

def ofEdges [DecidableEq N] (edges : List (Edge N A)) : Except PathError (Cycle N A) :=
  if edges = [] then .error (.notACycle .noEdges)
  else do
    let path ← Path.ofEdges edges
    if short : path.length < 2 then .error (.notACycle .tooShort)
    else if closed : path.origin = path.target then .ok ⟨path, Nat.le_of_not_lt short, closed⟩
    else .error (.notACycle .notClosed)

def edges (cycle : Cycle N A) : List (Edge N A) :=
  cycle.path.edges

def length (cycle : Cycle N A) : Nat :=
  cycle.path.length

/-- The nodes at which the edges of the cycle start, in order. -/
def nodes (cycle : Cycle N A) : List N :=
  cycle.edges.map Edge.origin

/-- The nodes in order and the first once more, with arrows between them. -/
def text (label : N → String) (cycle : Cycle N A) : String :=
  String.join (cycle.nodes.map fun node => label node ++ " -> ") ++ label cycle.path.target

end Cycle

end Archmap

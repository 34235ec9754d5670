/-!
# Flooding

Two steps of the search for cycles spread along arcs: finding what can be reached from a node, and
lifting the marks that wait for a node. Both are one function. It is given the set of nodes that may
still be entered, enters nodes from a list of work and adds their successors to the work, and
returns the nodes that it has not entered.

Every node entered leaves the set, so the size of the set bounds the number of rounds.
-/

namespace Archmap

abbrev NodeSet (n : Nat) := Vector Bool n

/-- Enters nodes from the front of the work list, at most `rounds` of them, and returns the nodes of
`free` that were not entered. -/
def floodRounds (next : Fin n → List (Fin n)) :
    (rounds : Nat) → (free : NodeSet n) → (work : List (Fin n)) → NodeSet n
  | 0, free, _ => free
  | rounds + 1, free, work =>
    match work.dropWhile fun node => !free.get node with
    | [] => free
    | node :: work => floodRounds next rounds (free.set node false node.isLt) (next node ++ work)

/-- Enters the nodes of the work list and all that can be reached from them through nodes of `free`,
and returns the rest of `free`. -/
def flood (next : Fin n → List (Fin n)) (free : NodeSet n) (work : List (Fin n)) : NodeSet n :=
  floodRounds next (free.count true) free work

/-- The nodes of `allowed` that can be reached from `node` through nodes of `allowed`, `node` itself
included if it is one of them. -/
def reachable (next : Fin n → List (Fin n)) (allowed : NodeSet n) (node : Fin n) : NodeSet n :=
  let rest := flood next allowed [node]
  Vector.ofFn fun v => allowed.get v && !rest.get v

end Archmap

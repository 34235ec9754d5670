import Archmap.Digraph.Components

/-!
# Searching elementary cycles

The nodes are the numbers below `n`. The search finds every elementary cycle once, starting at its
smallest node: it takes the strongly connected component with the smallest node, looks inside it for
the ways from that node back to it, and goes on with the graph on the greater nodes.

Walking the component, the search blocks each node of its trail. A node from which the start was
reached is unblocked when the walk leaves it. A node from which it was not stays blocked, since as
long as the trail stands it would lead nowhere again, and waits for its successors: when one of them
is unblocked, so is the node, and with it what waits for the node in turn. Thus no dead end is
walked twice between two cycles found.

The number of cycles is limited. The search stops, and says so, as soon as it meets one cycle more
than it may report.
-/

namespace Archmap

/-- The state of the search for the cycles through one start. -/
structure Search (n : Nat) where
  /-- Nodes that must not be entered. -/
  blocked : NodeSet n
  /-- The nodes that are unblocked together with a node. -/
  waiters : Vector (List (Fin n)) n
  /-- How many cycles may still be reported. -/
  room : Nat
  /-- The cycles found, the latest first, each from its start on. -/
  found : List (List (Fin n))
  /-- One more cycle was met than may be reported. -/
  truncated : Bool

namespace Search

/-- The state before any node is entered. -/
def fresh (n max : Nat) : Search n :=
  ⟨Vector.replicate n false, Vector.replicate n [], max, [], false⟩

/-- The state with which the next start begins: nothing is blocked, and what has been found is
kept. -/
def restart (s : Search n) : Search n :=
  { s with blocked := Vector.replicate n false, waiters := Vector.replicate n [] }

def block (s : Search n) (node : Fin n) : Search n :=
  { s with blocked := s.blocked.set node true node.isLt }

/-- Unblocks a node and all blocked nodes that wait for it, directly or through others. They wait
for nothing any more. -/
def unblock (s : Search n) (node : Fin n) : Search n :=
  let others := s.blocked.set node false node.isLt
  let still := flood s.waiters.get others (s.waiters.get node)
  let waiters := Vector.ofFn fun v : Fin n =>
    if v = node || (others.get v && !still.get v) then [] else s.waiters.get v
  { s with blocked := still, waiters }

/-- Lets a node wait for each of the given nodes. -/
def await (s : Search n) (node : Fin n) (awaited : List (Fin n)) : Search n :=
  { s with waiters := Vector.ofFn fun v : Fin n =>
      let present := s.waiters.get v
      if v ∈ awaited ∧ node ∉ present then node :: present else present }

/-- Reports a cycle, or notes that there is no room for it. The answer tells which. -/
def report (s : Search n) (cycle : List (Fin n)) : Bool × Search n :=
  match s.room with
  | 0 => (false, { s with truncated := true })
  | room + 1 => (true, { s with room, found := cycle :: s.found })

/-- Follows one arc of the walk. `trail` are the nodes walked so far, the latest first, and `enter`
continues the walk at a node. The flag tells whether the start has been reached so far. -/
def follow (enter : Fin n → Search n → Bool × Search n) (component : NodeSet n) (start : Fin n)
    (trail : List (Fin n)) (state : Bool × Search n) (next : Fin n) : Bool × Search n :=
  let (closed, s) := state
  if s.truncated || !component.get next then state
  else if next = start then
    let (reported, s) := s.report trail.reverse
    (closed || reported, s)
  else if s.blocked.get next then state
  else
    let (reached, s) := enter next s
    (closed || reached, s)

/-- Walks on from a node and tells whether the start was reached. `depth` bounds how many nodes the
trail may still grow by. -/
def walk (next : Fin n → List (Fin n)) (component : NodeSet n) (start : Fin n) :
    (depth : Nat) → (trail : List (Fin n)) → (node : Fin n) → Search n → Bool × Search n
  | 0, _, _, s => (false, s)
  | depth + 1, trail, node, s =>
    let trail := node :: trail
    let enter := walk next component start depth trail
    let (closed, s) :=
      (next node).foldl (follow enter component start trail) (false, s.block node)
    if closed then (true, s.unblock node)
    else (false, s.await node ((next node).filter component.get))

end Search

/-- Searches component after component, from the one with the smallest node among those from
`start` on, until none is left or the limit was met. `rounds` bounds the number of components. -/
def Search.throughComponents (split : Splitter) (next : Fin n → List (Fin n)) :
    (rounds : Nat) → (start : Nat) → Search n → Search n
  | 0, _, s => s
  | rounds + 1, start, s =>
    match leastComponent? split next start with
    | none => s
    | some (least, component) =>
      let inside := Vector.ofFn fun v => component.contains v
      let s := (walk next inside least n [] least s.restart).2
      if s.truncated then s else throughComponents split next rounds (least + 1) s

/-- The elementary cycles of more than one node, at most `max` of them, and whether there are more.
Each is listed from its smallest node on. No node may have an arc to itself. -/
def elementaryCycles (split : Splitter) (next : Fin n → List (Fin n)) (max : Nat) :
    List (List (Fin n)) × Bool :=
  let s := (Search.fresh n max).throughComponents split next n 0
  (s.found.reverse, s.truncated)

end Archmap

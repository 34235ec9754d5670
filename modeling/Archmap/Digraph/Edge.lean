/-!
# Edges

A directed edge between two nodes carries attachments, the facts because of which it exists.
-/

namespace Archmap

/-- A directed edge with its attachments. -/
structure Edge (N A : Type) where
  origin : N
  target : N
  attachments : List A
  deriving DecidableEq

namespace Edge

def isSelfLoop [DecidableEq N] (edge : Edge N A) : Bool :=
  edge.origin = edge.target

/-- The text `origin -> target`, with nodes shown by `label`. -/
def text (label : N → String) (edge : Edge N A) : String :=
  label edge.origin ++ " -> " ++ label edge.target

end Edge

end Archmap

import Archmap.Class.Name

/-!
# Dependencies between classes

A dependency states that one class depends on another, and why. The reason belongs to its identity:
two classes may be connected by any number of dependencies with different descriptions.
-/

namespace Archmap

structure Dependency where
  origin : ClassName
  target : ClassName
  description : String
  deriving DecidableEq

namespace Dependency

/-- Dependencies are ordered by origin, then target, then description. -/
def key (dependency : Dependency) : List String :=
  [dependency.origin.text, dependency.target.text, dependency.description]

/-- The dependencies of a list in ascending order, equal ones side by side. -/
def sort (dependencies : List Dependency) : List Dependency :=
  dependencies.mergeSort fun a b => !decide (b.key < a.key)

/-- The text `origin -> target (description)`. -/
def text (dependency : Dependency) : String :=
  dependency.origin.text ++ " -> " ++ dependency.target.text
    ++ " (" ++ dependency.description ++ ")"

end Dependency

end Archmap

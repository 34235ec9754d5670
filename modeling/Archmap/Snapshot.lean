import Archmap.Class.Basic
import Archmap.Class.Dependency

/-!
# Snapshots of the analysed code

A snapshot holds the classes of a code base and the dependencies that start at them. Dependencies
may end outside. It is built once from lists in any order and never changes: classes ascend by
name, dependencies by origin, target and description, each listed once.

Incoming and outgoing dependencies are two views of the same list, so nothing can be in one of them
and not in the other.
-/

namespace Archmap

/-- Classes and the dependencies that start at them. -/
structure Snapshot where
  classes : List Class
  dependencies : List Dependency
  classes_ascending : Ascending (fun cls => cls.name.text) classes
  dependencies_ascending : Ascending Dependency.key dependencies
  origins_known : ∀ d ∈ dependencies, ∃ cls ∈ classes, cls.name = d.origin

/-- Why lists of classes and dependencies form no snapshot. -/
inductive SnapshotError where
  | duplicateClass (name : ClassName)
  | unknownOrigin (dependency : Dependency)
  deriving DecidableEq

def SnapshotError.message : SnapshotError → String
  | .duplicateClass name => "Class " ++ name.text ++ " is defined twice"
  | .unknownOrigin dependency =>
    "Dependency " ++ dependency.text ++ " starts at a class outside the class graph"

namespace Snapshot

/-- The least name that occurs more than once. -/
def leastRepeated? (names : List ClassName) : Option ClassName :=
  (collectBy ClassName.text keepFirst names).find? (fun name => 1 < names.count name)

/-- Builds a snapshot. A repeated class is reported before an unknown origin, and of several faults
of one sort the least one. -/
def build (classes : List Class) (dependencies : List Dependency) :
    Except SnapshotError Snapshot :=
  let sorted := collectBy (fun cls : Class => cls.name.text) keepFirst classes
  let distinct := collectBy Dependency.key keepFirst dependencies
  match leastRepeated? (classes.map Class.name) with
  | some name => .error (.duplicateClass name)
  | none =>
    match stray : distinct.find? (fun d => !sorted.any (·.name = d.origin)) with
    | some dependency => .error (.unknownOrigin dependency)
    | none => .ok {
        classes := sorted
        dependencies := distinct
        classes_ascending := ascending_collectBy (by intros; rfl) classes
        dependencies_ascending := ascending_collectBy (by intros; rfl) dependencies
        origins_known := fun d hd => by
          have known := List.find?_eq_none.1 stray d hd
          simpa using known }

def get? (snapshot : Snapshot) (name : ClassName) : Option Class :=
  snapshot.classes.find? (·.name = name)

def contains (snapshot : Snapshot) (name : ClassName) : Bool :=
  snapshot.classes.any (·.name = name)

def dependenciesFrom (snapshot : Snapshot) (name : ClassName) : List Dependency :=
  snapshot.dependencies.filter (·.origin = name)

/-- The dependencies that end at the class, whether or not it is one of the snapshot's. -/
def dependenciesTo (snapshot : Snapshot) (name : ClassName) : List Dependency :=
  snapshot.dependencies.filter (·.target = name)

end Snapshot

end Archmap

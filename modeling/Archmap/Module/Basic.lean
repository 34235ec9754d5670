import Archmap.Snapshot
import Archmap.Identifier

/-!
# Modules

A module is a named group of classes of a snapshot. Everything else that is known about it, such as
the dependencies that leave or enter it, follows from the snapshot.
-/

namespace Archmap

/-- What is said about a module besides its identifier. -/
structure Description where
  name : String
  /-- The metadata of the root class that declares the module, if one does. -/
  metadata : Option Metadata := none
  deriving DecidableEq

/-- Classes with one identifier, ascending by name. -/
structure Group where
  identifier : Identifier
  classes : List Class
  deriving DecidableEq

/-- A described group. -/
structure Module where
  group : Group
  description : Description
  deriving DecidableEq

namespace Module

def identifier (module : Module) : Identifier := module.group.identifier

/-- The classes of the module, ascending by name. -/
def classes (module : Module) : List Class := module.group.classes

def name (module : Module) : String := module.description.name

/-- The class with this name belongs to the module. -/
def contains (module : Module) (name : ClassName) : Bool :=
  module.classes.any (·.name = name)

/-- The dependencies of classes of the module on classes outside it. -/
def leaving (module : Module) (snapshot : Snapshot) : List Dependency :=
  snapshot.dependencies.filter fun d => module.contains d.origin && !module.contains d.target

/-- The dependencies of classes outside the module on classes of it. -/
def entering (module : Module) (snapshot : Snapshot) : List Dependency :=
  snapshot.dependencies.filter fun d => module.contains d.target && !module.contains d.origin

end Module

/-- Two modules count as equal when they have the same identifier, also if they belong to different
module graphs. -/
def Module.sameAs (a b : Module) : Bool :=
  a.identifier = b.identifier

/-- A dependency of one module on another. It is backed by all dependencies of classes of the first
on classes of the second. The modules are known by position, identifier and name. -/
structure ModuleDependency where
  originIndex : Nat
  targetIndex : Nat
  origin : Identifier
  target : Identifier
  originName : String
  targetName : String
  classDependencies : List Dependency
  deriving DecidableEq

/-- The dependency as messages show it. -/
def ModuleDependency.text (dependency : ModuleDependency) : String :=
  "Module Dependency [" ++ dependency.originName ++ " -> " ++ dependency.targetName ++ "]"

end Archmap

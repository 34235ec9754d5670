import Archmap.Association.RootNamespaces
import Archmap.Module.Basic
import Archmap.Settings.Basic
import Archmap.Digraph.Graph

/-!
# Module graphs

A module graph holds the modules of a snapshot in the order of their identifiers and the
dependencies between them in the order of their origins and then their targets. A class dependency
that leaves a module either ends in another module, and then backs the dependency on that module, or
in none, and then it is an undefined dependency of the module it leaves.
-/

namespace Archmap

/-- Why classes cannot be grouped into modules. -/
inductive ModuleError where
  | roots (e : RootError)
  /-- The module was to be described by its root class and has none. -/
  | missingRoot (identifier : Identifier)
  | emptyName (identifier : Identifier)
  | duplicateIdentifier (identifier : Identifier)
  | duplicateName (name : String)
  deriving DecidableEq

def ModuleError.message : ModuleError → String
  | .roots e => e.message
  | .missingRoot identifier => "Module " ++ identifier.text ++ " contains no root class"
  | .emptyName identifier => "Module " ++ identifier.text ++ " must have a non-empty name"
  | .duplicateIdentifier identifier =>
    "Found multiple modules with the same identifier " ++ identifier.text
  | .duplicateName name => "Found multiple modules with the same name '" ++ name ++ "'"

/-- A key for which there is no module. -/
inductive LookupError where
  | identifier (parts : List String)
  | name (name : String)
  deriving DecidableEq

def LookupError.message : LookupError → String
  | .identifier parts => "There is no module with identifier " ++ Identifier.bracketed parts
  | .name key => "There is no module with name " ++ key

/-- The modules of a snapshot and the dependencies between them. -/
structure ModuleGraph where
  snapshot : Snapshot
  modules : List Module
  dependencies : List ModuleDependency

namespace ModuleGraph

/-- The first identifier or name in a list of modules that an earlier module has as well. -/
def repetition? (identifiers : List Identifier) (names : List String) :
    List Module → Option ModuleError
  | [] => none
  | module :: rest =>
    if identifiers.contains module.identifier then some (.duplicateIdentifier module.identifier)
    else if names.contains module.name then some (.duplicateName module.name)
    else repetition? (module.identifier :: identifiers) (module.name :: names) rest

/-- The position of the module that a class belongs to. -/
def owner? (modules : List Module) (name : ClassName) : Option Nat :=
  modules.findIdx? (·.contains name)

/-- The dependency of one module on another. It is backed by those of the candidates that end in
the other module. A module has no dependency on itself, nor one that nothing backs. -/
def dependencyOn? (origin target : Module × Nat) (candidates : List Dependency) :
    Option ModuleDependency :=
  let crossing := candidates.filter fun d => target.1.contains d.target
  if origin.2 = target.2 ∨ crossing = [] then none
  else some {
    originIndex := origin.2
    targetIndex := target.2
    origin := origin.1.identifier
    target := target.1.identifier
    originName := origin.1.name
    targetName := target.1.name
    classDependencies := crossing }

/-- The dependencies of one module on others, in the order of the others. The dependencies that
leave the module are laid out by the owners of the classes at which they end. -/
def dependenciesOf (snapshot : Snapshot) (modules : List Module) (origin : Module × Nat) :
    List ModuleDependency :=
  let owned := (origin.1.leaving snapshot).map fun d => (d, owner? modules d.target)
  modules.zipIdx.filterMap fun target =>
    dependencyOn? origin target ((owned.filter (·.2 = some target.2)).map Prod.fst)

/-- Makes a module graph of described groups, which ascend by identifier. -/
def assemble (settings : AggregationSettings) (snapshot : Snapshot) (modules : List Module) :
    Except ModuleError ModuleGraph :=
  match repetition? [] [] modules with
  | some e => .error e
  | none =>
    .ok ⟨snapshot, modules,
      (settings.mapModules (dependenciesOf snapshot modules) modules.zipIdx).flatten⟩

/-! ## Dependencies of one module -/

def dependenciesFrom (graph : ModuleGraph) (module : Module) : List ModuleDependency :=
  graph.dependencies.filter (·.origin = module.identifier)

def dependenciesTo (graph : ModuleGraph) (module : Module) : List ModuleDependency :=
  graph.dependencies.filter (·.target = module.identifier)

/-- The class dependencies that leave a module and back none of its dependencies, because they end
at classes of no module. -/
def undefinedDependencies (graph : ModuleGraph) (module : Module) : List Dependency :=
  let claimed := (graph.dependenciesFrom module).flatMap ModuleDependency.classDependencies
  (module.leaving graph.snapshot).filter fun d => !claimed.contains d

/-! ## Lookup -/

def get? (graph : ModuleGraph) (identifier : Identifier) : Option Module :=
  graph.modules.find? (·.identifier = identifier)

/-- The module whose identifier has exactly the given parts. -/
def byParts? (graph : ModuleGraph) (parts : List String) : Option Module :=
  match Identifier.ofParts parts with
  | .ok identifier => graph.get? identifier
  | .error _ => none

def byParts (graph : ModuleGraph) (parts : List String) : Except LookupError Module :=
  match graph.byParts? parts with
  | some module => .ok module
  | none => .error (.identifier parts)

def byName? (graph : ModuleGraph) (name : String) : Option Module :=
  graph.modules.find? (·.name = name)

def byName (graph : ModuleGraph) (name : String) : Except LookupError Module :=
  match graph.byName? name with
  | some module => .ok module
  | none => .error (.name name)

/-- The names of the modules, ascending. -/
def names (graph : ModuleGraph) : List String :=
  collectBy id keepFirst (graph.modules.map Module.name)

/-- The module that a dependency starts at: the one at its origin's position, if it has the
origin's identifier. -/
def originOf? (graph : ModuleGraph) (dependency : ModuleDependency) : Option Module :=
  graph.modules[dependency.originIndex]?.filter (·.identifier = dependency.origin)

/-- The module that a dependency ends at: the one at its target's position, if it has the target's
identifier. -/
def targetOf? (graph : ModuleGraph) (dependency : ModuleDependency) : Option Module :=
  graph.modules[dependency.targetIndex]?.filter (·.identifier = dependency.target)

/-! ## Cycles -/

/-- The modules as nodes and their dependencies as edges, to which the class dependencies are
attached. -/
def dependencyGraph (graph : ModuleGraph) : Graph Identifier Dependency :=
  let nodes := graph.modules.foldl (fun g module => g.addNode module.identifier) Graph.empty
  graph.dependencies.foldl (fun g d => g.addEdge ⟨d.origin, d.target, d.classDependencies⟩) nodes

/-- The elementary cycles between modules, up to the limit of the settings. The search splits the
graph by the given splitter. -/
def cyclesBy (split : Splitter) (graph : ModuleGraph) (settings : CycleSettings) :
    Cycles Identifier Dependency :=
  graph.dependencyGraph.cyclesBy split settings.maxNumberToDetect.toNat

/-- The elementary cycles between modules, up to the limit of the settings. -/
def cycles (graph : ModuleGraph) (settings : CycleSettings) : Cycles Identifier Dependency :=
  graph.cyclesBy .flooding settings

end ModuleGraph

end Archmap

import Archmap.Association.Basic
import Archmap.Module.Graph
import Archmap.Naming.Pattern

/-!
# Creating module graphs

A creator combines an association with a way to describe the modules that result. It groups the
classes of a snapshot by identifier, leaves out those that are ignored, describes the groups in
the order of their identifiers, and assembles the module graph.

A creator can be used for one snapshot after the other. What the association registers for one
snapshot is handed on to the next, which starts by forgetting it.
-/

namespace Archmap

/-- A way to describe the module that a group of classes forms. -/
abbrev Describer (m : Type → Type) := Group → m (Except ModuleError Description)

/-- An association together with a way to describe modules. -/
structure Creator (m : Type → Type) where
  association : Association m
  describe : Describer m
  aggregation : AggregationSettings := {}

/-! ## Ways to describe modules -/

/-- Describes a module by a function of its group. -/
def Describer.ofGroup [Monad m] (describe : Group → Description) : Describer m :=
  fun group => pure (.ok (describe group))

/-- Names a module by a pattern over its identifier. -/
def Describer.ofPattern [Monad m] (pattern : NamingPattern) : Describer m :=
  .ofGroup fun group => { name := pattern.apply group.identifier }

/-- The first root among some classes, which are asked in order until one is found. -/
def findRoot? [Monad m] (isRoot : Class → m Bool) : List Class → m (Option Class)
  | [] => pure none
  | cls :: rest => do
    if ← isRoot cls then pure (some cls) else findRoot? isRoot rest

/-- Describes a module by a function of its identifier and its root class. -/
def Describer.ofRoot [Monad m] (isRoot : Class → m Bool)
    (describe : Identifier → Class → Description) : Describer m := fun group => do
  match ← findRoot? isRoot group.classes with
  | some root => pure (.ok (describe group.identifier root))
  | none => pure (.error (.missingRoot group.identifier))

namespace Creator

/-! ## Making creators -/

/-- Modules by any association, named by the standard pattern. -/
def ofAssociation [Monad m] (association : Association m) : Creator m :=
  { association, describe := .ofPattern .standard }

/-- One module for each class that carries metadata of a kind. The module is declared by the first
entry of that kind and named by a function of it. -/
def ofMetadata [Monad m] (kind : String) (nameOf : Metadata → String) : Creator m :=
  let isRoot (cls : Class) : m Bool := pure (cls.hasMetadata kind)
  { association := .rootClasses isRoot
    describe := .ofRoot isRoot fun _ root =>
      let metadata := (root.metadataOf? kind).getD { kind }
      { name := nameOf metadata, metadata := some metadata } }

/-- The name of a module that is the value of an attribute of its metadata behind a fixed text. -/
def attributeName (key front : String) (metadata : Metadata) : String :=
  front ++ (metadata.attributes.get? key).getD ""

/-- The same modules, described otherwise. -/
def describedBy (creator : Creator m) (describe : Describer m) : Creator m :=
  { creator with describe }

/-- The same modules, described by their root classes. Modules that are not spanned by root classes
keep their description. -/
def describedByRoot [Monad m] (creator : Creator m)
    (describe : Identifier → Class → Description) : Creator m :=
  match creator.association with
  | .rootClasses isRoot => creator.describedBy (.ofRoot isRoot describe)
  | .namespaces _ | .assign _ => creator

/-- The same modules, aggregated otherwise. -/
def aggregatedBy (creator : Creator m) (aggregation : AggregationSettings) : Creator m :=
  { creator with aggregation }

/-! ## Grouping, describing, assembling -/

/-- Joins the classes of two groups with one identifier. -/
def mergeGroups (old new : Group) : Group :=
  { old with classes := old.classes ++ new.classes }

/-- Groups classes by identifier, ascending, and leaves out those that are ignored. -/
def groups (identify : Class → Identifier) (classes : List Class) : List Group :=
  collectBy (·.identifier.parts) mergeGroups <|
    (classes.map fun cls => Group.mk (identify cls) [cls]).filter (!·.identifier.isIgnored)

/-- Describes groups in order, until one cannot be described or has an empty name. -/
def describeAll [Monad m] (describe : Describer m) :
    List Group → m (Except ModuleError (List Module))
  | [] => pure (.ok [])
  | group :: rest => do
    match ← describe group with
    | .error e => pure (.error e)
    | .ok description =>
      if description.name = "" then pure (.error (.emptyName group.identifier))
      else return (← describeAll describe rest).map (⟨group, description⟩ :: ·)

/-- Groups the classes of a snapshot into modules. `roots` are the root namespaces registered for
the snapshot before; those registered now are given back, also on failure. -/
def modularize [Monad m] (creator : Creator m) (roots : RootNamespaces) (snapshot : Snapshot) :
    m (Except ModuleError ModuleGraph × RootNamespaces) := do
  let (prepared, roots) ← creator.association.init roots snapshot
  match prepared with
  | .error e => pure (.error (.roots e), roots)
  | .ok () =>
    let described ← describeAll creator.describe
      (groups (creator.association.identify roots) snapshot.classes)
    pure (described.bind (ModuleGraph.assemble creator.aggregation snapshot), roots)

/-- Groups one snapshot after the other with one creator. -/
def modularizeAll [Monad m] (creator : Creator m) (roots : RootNamespaces) :
    List Snapshot → m (List (Except ModuleError ModuleGraph))
  | [] => pure []
  | snapshot :: rest => do
    let (graph, roots) ← creator.modularize roots snapshot
    return graph :: (← modularizeAll creator roots rest)

end Creator

end Archmap

import Archmap.Association.RootNamespaces
import Archmap.Namespace.Pattern

/-!
# Associating classes with modules

An association decides which classes end up in the same module, by giving each class the identifier
of its module. It is prepared for a snapshot before any class is looked at; only root classes need
that, and what they register is the one thing that is kept from one snapshot to the next.
-/

namespace Archmap

/-- A way to map classes to module identifiers. -/
inductive Association (m : Type → Type) where
  /-- By what a pattern captures from their namespace. -/
  | namespaces (pattern : NamespacePattern)
  /-- By the root class whose namespace contains theirs. -/
  | rootClasses (isRoot : Class → m Bool)
  | assign (identify : Class → Identifier)

namespace Association

/-- Prepares the association for a snapshot. -/
def init [Monad m] (association : Association m) (roots : RootNamespaces) (snapshot : Snapshot) :
    m (Except RootError Unit × RootNamespaces) :=
  match association with
  | rootClasses isRoot => RootNamespaces.init isRoot snapshot
  | namespaces _ | assign _ => pure (.ok (), roots)

/-- The identifier of the module that a class belongs to. -/
def identify (association : Association m) (roots : RootNamespaces) (cls : Class) : Identifier :=
  match association with
  | namespaces pattern => pattern.identify cls
  | rootClasses _ => roots.identify cls
  | assign identify => identify cls

end Association

end Archmap

import Archmap.Snapshot
import Archmap.Identifier
import Archmap.Namespace.Containment

/-!
# Modules spanned by root classes

A root class spans the module of all classes in its namespace and below it. The roots of a snapshot
are registered class by class: each needs a namespace of its own that neither contains nor lies in
one registered before. The first root that does not fit ends the registration, and what was
registered up to it stays.

Asking whether a class is a root may have an effect, such as counting the questions; each class is
asked once, in order, until the registration ends.
-/

namespace Archmap

/-- The namespaces of the registered root classes, ascending. -/
structure RootNamespaces where
  namespaces : List String
  deriving DecidableEq

/-- Why root classes do not span modules. -/
inductive RootError where
  /-- The root class lies in the root namespace. -/
  | withoutNamespace (name : ClassName)
  /-- The namespace `second` of a root class overlaps with `first`, registered before. -/
  | overlapping (first second : String)
  deriving DecidableEq

def RootError.message : RootError → String
  | .withoutNamespace name =>
    "Root class " ++ name.text ++ " lies in the root namespace and cannot span a module"
  | .overlapping first second =>
    "modules from root classes would overlap in '" ++ first ++ "' and '" ++ second ++ "'"

namespace RootNamespaces

def empty : RootNamespaces := ⟨[]⟩

/-- Registers one root class. -/
def enlist (roots : RootNamespaces) (root : Class) : Except RootError RootNamespaces :=
  let ns := root.name.enclosingNamespace
  if ns = "" then .error (.withoutNamespace root.name)
  else
    let overlaps (existing : String) :=
      namespaceContains existing ns || namespaceContains ns existing
    match roots.namespaces.find? overlaps with
    | some existing => .error (.overlapping existing ns)
    | none => .ok ⟨insertBy id keepFirst ns roots.namespaces⟩

/-- Registers the roots among the given classes, one after the other, and tells whether all fitted
in. The roots registered so far are given back in either case. -/
def register [Monad m] (isRoot : Class → m Bool) (roots : RootNamespaces) :
    List Class → m (Except RootError Unit × RootNamespaces)
  | [] => pure (.ok (), roots)
  | cls :: rest => do
    if ← isRoot cls then
      match roots.enlist cls with
      | .error e => pure (.error e, roots)
      | .ok roots => register isRoot roots rest
    else register isRoot roots rest

/-- Registers the roots of a snapshot, forgetting all registered before. -/
def init [Monad m] (isRoot : Class → m Bool) (snapshot : Snapshot) :
    m (Except RootError Unit × RootNamespaces) :=
  register isRoot .empty snapshot.classes

/-- The longest of some texts; of equally long ones the last. -/
def longest? (texts : List String) : Option String :=
  texts.foldl (fun best text =>
    match best with
    | none => some text
    | some other => if other.utf8ByteSize ≤ text.utf8ByteSize then some text else best) none

/-- The registered namespace that a class belongs to: the longest that contains its namespace. -/
def rootOf? (roots : RootNamespaces) (cls : Class) : Option String :=
  longest? (roots.namespaces.filter (namespaceContains · cls.name.enclosingNamespace))

/-- The identifier of the module that a class belongs to. Its only part is the namespace of the
root. -/
def identify (roots : RootNamespaces) (cls : Class) : Identifier :=
  match roots.rootOf? cls with
  | none => .ignore
  | some root =>
    match Identifier.ofParts [root] with
    | .ok identifier => identifier
    | .error _ => .ignore

end RootNamespaces

end Archmap

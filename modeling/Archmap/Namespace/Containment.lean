import Archmap.Text.Segments

/-!
# Namespace containment

A namespace contains itself and every namespace below it. The test works on the texts: the child
begins with the parent, and the parent ends where a segment of the child ends. Without the second
condition `p.mod1` would contain `p.mod10`.
-/

namespace Archmap

/-- `child` is `parent` or lies below it. -/
def namespaceContains (parent child : String) : Bool :=
  match dropStart? parent.toList child.toList with
  | some [] => true
  | some (c :: _) => c = '.'
  | none => false

end Archmap

import Archmap.Text.Segments

/-!
# Class names

A class is known by its qualified name, a text of dot-separated segments none of which is empty.
All but the last segment make up the namespace, the last one is the simple name; a class without a
namespace lies in the root namespace, whose text is empty.
-/

namespace Archmap

/-- The qualified name of a class. No segment is empty; since the empty text has one empty segment,
it is no name either. -/
structure ClassName where
  text : String
  proper : ∀ segment ∈ splitDots text.toList, segment ≠ []
  deriving DecidableEq

/-- Why a text is no class name. -/
inductive ClassName.Error where
  | empty
  /-- The text begins or ends with a dot or has two dots in a row. -/
  | emptySegment (name : String)
  deriving DecidableEq

def ClassName.Error.message : ClassName.Error → String
  | .empty => "class name is empty"
  | .emptySegment name => "class name '" ++ name ++ "' contains an empty segment"

namespace ClassName

def ofText (text : String) : Except ClassName.Error ClassName :=
  if text = "" then .error .empty
  else if proper : ∀ segment ∈ splitDots text.toList, segment ≠ [] then .ok ⟨text, proper⟩
  else .error (.emptySegment text)

/-- The namespace that the class lies in, empty for the root namespace. -/
def enclosingNamespace (name : ClassName) : String :=
  match cutAtLastDot name.text.toList with
  | (some front, _) => String.ofList front
  | (none, _) => ""

/-- The name of the class within its namespace. -/
def simpleName (name : ClassName) : String :=
  String.ofList (cutAtLastDot name.text.toList).2

end ClassName

end Archmap

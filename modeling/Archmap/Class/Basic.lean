import Archmap.Ascending
import Archmap.Class.Name

/-!
# Classes and their metadata

A class carries, besides its name, a list of metadata entries. An entry has a kind and named
attributes; a class may have several entries of one kind, of which the first one counts.
-/

namespace Archmap

/-- Named attribute values, in the order of their names. -/
structure Attributes where
  entries : List (String × String)
  ascending : Ascending Prod.fst entries
  deriving DecidableEq

namespace Attributes

def empty : Attributes := ⟨[], .nil⟩

/-- Collects attributes from a list in which a later value for a name replaces an earlier one. -/
def ofList (entries : List (String × String)) : Attributes :=
  ⟨collectBy Prod.fst replaceValue entries, ascending_collectBy (by intros; rfl) entries⟩

def get? (attributes : Attributes) (name : String) : Option String :=
  attributes.entries.lookup name

end Attributes

/-- One entry of metadata, such as a marker that declares what module its class forms. -/
structure Metadata where
  kind : String
  attributes : Attributes := .empty
  deriving DecidableEq

structure Class where
  name : ClassName
  metadata : List Metadata := []
  deriving DecidableEq

namespace Class

/-- The first metadata entry of a kind. -/
def metadataOf? (cls : Class) (kind : String) : Option Metadata :=
  cls.metadata.find? (·.kind = kind)

def hasMetadata (cls : Class) (kind : String) : Bool :=
  (cls.metadataOf? kind).isSome

end Class

end Archmap

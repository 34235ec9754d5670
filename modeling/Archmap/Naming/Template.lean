import Archmap.Module.Basic

/-!
# Naming templates

A template puts the name of a module together from pieces: fixed text, and what is known about the
module. Templates over a group can use its classes, templates over a root class what is known about
that class.
-/

namespace Archmap

/-- A piece of a name made from a group. -/
inductive GroupPiece where
  | literal (text : String)
  /-- The parts of the identifier with colons between them. -/
  | joined
  /-- The identifier in brackets. -/
  | identifier
  | count
  /-- The simple name of the first class. -/
  | first
  /-- The simple name of the last class. -/
  | last
  deriving DecidableEq

/-- What a piece contributes to the name of a group. -/
def GroupPiece.text (group : Group) : GroupPiece → String
  | literal text => text
  | joined => group.identifier.joined
  | identifier => group.identifier.text
  | count => toString group.classes.length
  | first => (group.classes.head?.map (·.name.simpleName)).getD ""
  | last => (group.classes.getLast?.map (·.name.simpleName)).getD ""

/-- A piece of a name made from a root class. -/
inductive RootPiece where
  | literal (text : String)
  /-- The parts of the identifier with colons between them. -/
  | joined
  | className
  | enclosingNamespace
  | simpleName
  deriving DecidableEq

/-- What a piece contributes to the name of a module with the given identifier and root. -/
def RootPiece.text (identifier : Identifier) (root : Class) : RootPiece → String
  | literal text => text
  | joined => identifier.joined
  | className => root.name.text
  | enclosingNamespace => root.name.enclosingNamespace
  | simpleName => root.name.simpleName

/-- The name that a template makes from a group. -/
def GroupPiece.render (template : List GroupPiece) (group : Group) : String :=
  String.join (template.map (GroupPiece.text group))

/-- The name that a template makes from a root class. -/
def RootPiece.render (template : List RootPiece) (identifier : Identifier) (root : Class) :
    String :=
  String.join (template.map (RootPiece.text identifier root))

end Archmap

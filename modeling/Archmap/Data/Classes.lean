import Archmap.Data.Decoder
import Archmap.Class.Basic
import Archmap.Class.Dependency

/-!
# Classes, dependencies and identifiers as data

Records are written as maps of all their fields and read from maps or from lists of fields. Class
names and identifiers are checked when they are read, so nothing improper is ever decoded, and the
mark of ignored classes, which identifies no module, cannot be read at all.
-/

namespace Archmap

namespace ClassName

def toValue (name : ClassName) : Value := .text name.text

def ofValue (value : Value) : Decoded ClassName := do
  match ofText (← value.asText) with
  | .ok name => return name
  | .error e => .fail (.className e)

end ClassName

namespace Attributes

def toValue (attributes : Attributes) : Value :=
  .map (attributes.entries.map fun (key, value) => (key, .text value))

def ofValue (value : Value) : Decoded Attributes :=
  (value.asMap Value.asText).map ofList

end Attributes

namespace Metadata

def toValue (metadata : Metadata) : Value :=
  .map [("attributes", metadata.attributes.toValue), ("kind", .text metadata.kind)]

/-- Reads a metadata entry; attributes may be left out. -/
def ofValue : Value → Decoded Metadata
  | .map entries => do
    let attributes ← Value.field? entries "attributes" Attributes.ofValue
    let kind ← Value.field? entries "kind" Value.asText
    return ⟨← Value.required "kind" kind, attributes.getD .empty⟩
  | .list values => do
    let kind ← Value.element values 0 "Metadata" 2 Value.asText
    let attributes ← Value.element? values 1 Attributes.ofValue
    Value.finished .refused values 2
    return ⟨kind, attributes.getD .empty⟩
  | value => .fail (.wrongSort value (.record "Metadata"))

end Metadata

namespace Class

def toValue (cls : Class) : Value :=
  .map [("id", cls.name.toValue), ("metadata", .list (cls.metadata.map Metadata.toValue))]

/-- Reads a class; metadata may be left out. -/
def ofValue : Value → Decoded Class
  | .map entries => do
    let name ← Value.field? entries "id" ClassName.ofValue
    let metadata ← Value.field? entries "metadata" (Value.asList Metadata.ofValue)
    return ⟨← Value.required "id" name, metadata.getD []⟩
  | .list values => do
    let name ← Value.element values 0 "Class" 2 ClassName.ofValue
    let metadata ← Value.element? values 1 (Value.asList Metadata.ofValue)
    Value.finished .refused values 2
    return ⟨name, metadata.getD []⟩
  | value => .fail (.wrongSort value (.record "Class"))

end Class

namespace Dependency

def toValue (dependency : Dependency) : Value :=
  .map [("description", .text dependency.description), ("origin", dependency.origin.toValue),
    ("target", dependency.target.toValue)]

def ofValue : Value → Decoded Dependency
  | .map entries => do
    let description ← Value.field? entries "description" Value.asText
    let origin ← Value.field? entries "origin" ClassName.ofValue
    let target ← Value.field? entries "target" ClassName.ofValue
    let origin ← Value.required "origin" origin
    let target ← Value.required "target" target
    return ⟨origin, target, ← Value.required "description" description⟩
  | .list values => do
    let origin ← Value.element values 0 "ClassDependency" 3 ClassName.ofValue
    let target ← Value.element values 1 "ClassDependency" 3 ClassName.ofValue
    let description ← Value.element values 2 "ClassDependency" 3 Value.asText
    Value.finished .refused values 3
    return ⟨origin, target, description⟩
  | value => .fail (.wrongSort value (.record "ClassDependency"))

end Dependency

namespace Identifier

def toValue (identifier : Identifier) : Value :=
  .map [("parts", .list (identifier.parts.map .text))]

def partsOfValue : Value → Decoded (List String)
  | .map entries => do
    Value.required "parts" (← Value.field? entries "parts" (Value.asList Value.asText))
  | .list values => do
    let parts ← Value.element values 0 "IdentifierParts" 1 (Value.asList Value.asText)
    Value.finished .refused values 1
    return parts
  | value => .fail (.wrongSort value (.record "IdentifierParts"))

def ofValue (value : Value) : Decoded Identifier := do
  match ofParts (← partsOfValue value) with
  | .ok identifier => return identifier
  | .error e => .fail (.identifier e)

end Identifier

end Archmap

import Archmap.Settings.Data
import Archmap.Settings.Environment
import Archmap.Settings.Validation
import Archmap.Toml.Document

/-!
# Loading settings

Settings are laid over each other in layers: the defaults, then a document, then the variables of
the environment. A later layer replaces what it sets and leaves everything else, down to single
keys. The result is decoded and validated.
-/

namespace Archmap

/-- Why settings cannot be loaded. -/
inductive LoadError where
  | malformed
  | shape (fault : Fault)
  | invalid (fault : InvalidSetting)

namespace Settings

/-- Decodes and validates layered settings. -/
def ofLayers (layers : Value) : Except LoadError Settings :=
  match Settings.ofValue .ignored layers with
  | .error fault => .error (.shape fault)
  | .ok settings =>
    match settings.fault? with
    | some fault => .error (.invalid fault)
    | none => .ok settings

/-- The defaults with a document laid over them, if there is one. -/
def documented (document : Option String) : Except LoadError Value :=
  let defaults := ({} : Settings).toValue
  match document with
  | none => .ok defaults
  | some text =>
    match Toml.read? text with
    | none => .error .malformed
    | some layer => .ok (defaults.overlay layer)

/-- Loads settings from a document, if there is one, and the settings of the environment, given by
the names of their variables. -/
def load (document : Option String) (environment : List (String × String)) :
    Except LoadError Settings :=
  match documented document with
  | .error e => .error e
  | .ok below => ofLayers (below.overlay (Environment.layer environment))

/-- Loads settings from a document alone. -/
def ofDocument (text : String) : Except LoadError Settings :=
  match documented (some text) with
  | .error e => .error e
  | .ok layers => ofLayers layers

end Settings

end Archmap

import Archmap.Ascending

/-!
# Data values

The tree that documents and requests are read into: settings layers and the JSON form of the
library's own types. Whole numbers keep how they were classed, since messages tell unsigned ones
from signed ones in some formats. The entries of a map ascend by key wherever this library makes
one.
-/

namespace Archmap

/-- A value of a structured document. -/
inductive Value where
  | null
  | boolean (b : Bool)
  | unsigned (n : UInt64)
  | signed (i : Int64)
  | float (x : Float)
  | text (s : String)
  | list (values : List Value)
  | map (entries : List (String × Value))

namespace Value

/-- Sets the value of a key in a map. -/
def put (entries : List (String × Value)) (key : String) (value : Value) : List (String × Value) :=
  insertBy Prod.fst replaceValue (key, value) entries

mutual

/-- Lays one value over another. Maps are joined key by key; anything else is replaced. -/
def overlay (below : Value) : Value → Value
  | .map entries =>
    match below with
    | .map under => .map (overlayEntries under entries)
    | _ => .map entries
  | above => above

/-- Lays the entries of one map over those of another. -/
def overlayEntries (under : List (String × Value)) : List (String × Value) → List (String × Value)
  | [] => under
  | entry :: rest => overlayEntries (overlayEntry under entry) rest

/-- Lays one entry over those of a map. -/
def overlayEntry (under : List (String × Value)) : String × Value → List (String × Value)
  | (key, value) =>
    match under.lookup key with
    | some below => put under key (overlay below value)
    | none => put under key value

end

end Value

end Archmap

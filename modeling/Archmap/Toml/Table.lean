import Archmap.Data.Value

/-!
# Tables of a TOML document

While a document is read its tables remember how they came about, since that decides what may be
added to them. A table is *implicit* until a header or an inline value defines it; it is *dotted* if
only keys with dots have made it. A header may define an implicit table that is not dotted, and a
key may go through implicit tables only, ending in a table made by dots if it has dots itself. All
else would define something twice.
-/

namespace Archmap.Toml

/-- A table or a value in a document that is being read. -/
inductive Node where
  /-- A value that is complete. -/
  | value (v : Value)
  | table (isImplicit isDotted : Bool) (entries : List (String × Node))
  /-- An array of tables, the latest first. -/
  | tables (latestFirst : List Node)

namespace Node

def put (entries : List (String × Node)) (key : String) (node : Node) : List (String × Node) :=
  insertBy Prod.fst replaceValue (key, node) entries

/-- Changes the table that is reached along a path, making tables where there are none. A path of a
key with dots, unlike that of a header, must not go through tables that are defined already. -/
def change (dotted : Bool) (update : Node → Option Node) : (path : List String) → Node → Option Node
  | [], node => update node
  | key :: path, .table i d entries =>
    match entries.lookup key with
    | none => do
      let child ← change dotted update path (.table true dotted [])
      some (.table i d (put entries key child))
    | some (.table i' d' entries') =>
      if dotted && !i' then none
      else do
        let child ← change dotted update path (.table i' d' entries')
        some (.table i d (put entries key child))
    | some (.tables (last :: others)) => do
      let child ← change dotted update path last
      some (.table i d (put entries key (.tables (child :: others))))
    | some (.tables []) | some (.value _) => none
  | _ :: _, _ => none

/-- Adds a key with its value to a table, going along the dots of the key. -/
def assign (path : List String) (key : String) (value : Node) (node : Node) : Option Node :=
  change true (fun
    | .table i d entries =>
      if d = path.isEmpty ∨ (entries.lookup key).isSome then none
      else some (.table i d (put entries key value))
    | _ => none) path node

/-- Defines a table by a header. -/
def define (path : List String) (key : String) (node : Node) : Option Node :=
  change false (fun
    | .table i d entries =>
      match entries.lookup key with
      | none => some (.table i d (put entries key (.table false false [])))
      | some (.table true false inner) =>
        some (.table i d (put entries key (.table false false inner)))
      | some _ => none
    | _ => none) path node

/-- Adds a table to an array of tables by a header. -/
def extend (path : List String) (key : String) (node : Node) : Option Node :=
  change false (fun
    | .table i d entries =>
      match entries.lookup key with
      | none => some (.table i d (put entries key (.tables [.table false false []])))
      | some (.tables others) =>
        some (.table i d (put entries key (.tables (.table false false [] :: others))))
      | some _ => none
    | _ => none) path node

mutual

/-- The value that a node stands for once the document has been read. -/
def toValue : Node → Value
  | .value v => v
  | .table _ _ entries => .map (toEntries entries)
  | .tables latestFirst => .list (toElements latestFirst [])

def toEntries : List (String × Node) → List (String × Value)
  | [] => []
  | entry :: rest => toEntry entry :: toEntries rest

def toEntry : String × Node → String × Value
  | (key, node) => (key, toValue node)

/-- The elements of an array of tables in front of those already written. -/
def toElements : (latestFirst : List Node) → List Value → List Value
  | [], done => done
  | node :: others, done => toElements others (toValue node :: done)

end

end Node

end Archmap.Toml

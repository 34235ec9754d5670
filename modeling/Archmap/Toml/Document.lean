import Archmap.Toml.Scalar
import Archmap.Toml.Table
import Archmap.Toml.Time

/-!
# TOML documents

A document is a sequence of lines: keys with their values, headers of tables and of elements of
arrays of tables, comments and empty lines. The keys below a header belong to its table. A document
that does not follow the grammar, or defines something twice, has no meaning at all. Nor has one in
which keys have too many dots or values are nested too deeply.

The readers are given a bound on the number of steps. A step takes at least one character, so the
length of the document is bound enough.
-/

namespace Archmap.Toml

def skipBlanks (text : List Char) : List Char :=
  text.dropWhile fun c => c = ' ' ∨ c = '\t'

/-- The end of a line: blanks and perhaps a comment, then a line break or the end of the text. The
rest starts behind the line break. -/
def endOfLine? (text : List Char) : Option (List Char) :=
  let rest := skipBlanks text
  let rest := if rest.head? = some '#' then rest.dropWhile isPlain else rest
  if rest = [] then some [] else lineBreak? rest

/-- Drops blanks, line breaks and comments, as may stand inside an array. -/
def skipLines : (steps : Nat) → List Char → List Char
  | 0, text => text
  | steps + 1, text =>
    let rest := skipBlanks text
    match rest with
    | '#' :: _ => skipLines steps (rest.dropWhile isPlain)
    | _ =>
      match lineBreak? rest with
      | some rest => skipLines steps rest
      | none => rest

def simpleKey? (text : List Char) : Option (String × List Char) :=
  match text with
  | '"' :: _ | '\'' :: _ => text? false text
  | _ =>
    let isKeyPart (c : Char) : Bool := c.isAlphanum || c = '_' || c = '-'
    let key := text.takeWhile isKeyPart
    if key = [] then none else some (String.ofList key, text.dropWhile isKeyPart)

/-- How many keys a key with dots may consist of, and how many arrays and inline tables may lie in
each other. -/
def maxDepth : Nat := 79

/-- A key: one or more keys with dots between them, but no more than `room`. The result is what
stands in front of the last dot and what stands behind it. -/
def key? : (room : Nat) → List Char → Option ((List String × String) × List Char)
  | 0, _ => none
  | room + 1, text => do
    let (key, rest) ← simpleKey? (skipBlanks text)
    match skipBlanks rest with
    | '.' :: rest =>
      let ((path, last), rest) ← key? room rest
      some ((key :: path, last), rest)
    | rest => some (([], key), rest)

mutual

/-- A value in which so many arrays and inline tables may lie in each other. -/
def value? : (steps room : Nat) → List Char → Option (Value × List Char)
  | 0, _, _ => none
  | steps + 1, room, text =>
    match text, room with
    | '"' :: _, _ | '\'' :: _, _ => (text? true text).map fun (s, rest) => (.text s, rest)
    | '[' :: rest, room + 1 => elements? steps room [] rest
    | '{' :: rest, room + 1 =>
      match skipBlanks rest with
      | '}' :: rest => some (.map [], rest)
      | rest => inline? steps room (.table false false []) rest
    | _, _ =>
      match dateTime? text with
      | some rest => some (dateTimeValue, rest)
      | none => (word? (text.takeWhile isWordPart)).map fun v => (v, text.dropWhile isWordPart)

/-- The elements of an array up to its closing bracket. `done` are those read so far, back to
front. -/
def elements? : (steps room : Nat) → (done : List Value) → List Char →
    Option (Value × List Char)
  | 0, _, _, _ => none
  | steps + 1, room, done, text =>
    match skipLines (text.length + 1) text with
    | ']' :: rest => some (.list done.reverse, rest)
    | rest => do
      let (v, rest) ← value? steps room rest
      match skipLines (rest.length + 1) rest with
      | ',' :: rest => elements? steps room (v :: done) rest
      | ']' :: rest => some (.list (v :: done).reverse, rest)
      | _ => none

/-- The keys and values of an inline table up to its closing brace. -/
def inline? : (steps room : Nat) → (table : Node) → List Char → Option (Value × List Char)
  | 0, _, _, _ => none
  | steps + 1, room, table, text => do
    let ((path, key), rest) ← key? maxDepth text
    match rest with
    | '=' :: rest =>
      let (v, rest) ← value? steps room (skipBlanks rest)
      let table ← Node.assign path key (.value v) table
      match skipBlanks rest with
      | ',' :: rest => inline? steps room table rest
      | '}' :: rest => some (table.toValue, rest)
      | _ => none
    | _ => none

end

/-- A document that is being read: its tables, and the path of the table whose header came last. -/
structure State where
  root : Node
  header : List String

/-- The key between the brackets of a header, and the rest of the line. -/
def header? (text closing : List Char) : Option ((List String × String) × List Char) := do
  let (key, rest) ← key? maxDepth text
  if closing.isPrefixOf rest then some (key, rest.drop closing.length) else none

/-- Reads one line that is not empty. The rest starts behind what the line defines. -/
def line (state : State) (text : List Char) : Option (State × List Char) :=
  match text with
  | '[' :: '[' :: rest => do
    let ((path, key), rest) ← header? rest [']', ']']
    some (⟨← state.root.extend path key, path ++ [key]⟩, rest)
  | '[' :: rest => do
    let ((path, key), rest) ← header? rest [']']
    some (⟨← state.root.define path key, path ++ [key]⟩, rest)
  | _ => do
    let ((path, key), rest) ← key? maxDepth text
    match rest with
    | '=' :: rest =>
      let (v, rest) ← value? (rest.length + 1) maxDepth (skipBlanks rest)
      some ({ state with
        root := ← state.root.change false (Node.assign path key (.value v)) state.header }, rest)
    | _ => none

def lines (state : State) : (steps : Nat) → List Char → Option State
  | 0, _ => none
  | steps + 1, text =>
    match skipLines (text.length + 1) text with
    | [] => some state
    | rest => do
      let (state, rest) ← line state rest
      lines state steps (← endOfLine? rest)

/-- Reads a document; the result is the map of its keys. -/
def read? (text : String) : Option Value :=
  let chars := text.toList
  let chars := if chars.head? = some '\ufeff' then chars.tail else chars
  (lines ⟨.table false false [], []⟩ (chars.length + 1) chars).map (·.root.toValue)

end Archmap.Toml

import Archmap.Json.Number
import Archmap.Json.Text

/-!
# JSON documents

A document is one value with white space around it. Where a map gives a key twice the later value
counts. Writing puts no white space anywhere.

The readers are given a bound on the number of steps. A step takes at least one character, so the
length of the document is bound enough.
-/

namespace Archmap.Json

def skipBlanks (text : List Char) : List Char :=
  text.dropWhile fun c => c = ' ' ∨ c = '\t' ∨ c = '\n' ∨ c = '\r'

mutual

/-- Reads a value from the front of a text. -/
def value? : (steps : Nat) → List Char → Option (Value × List Char)
  | 0, _ => none
  | steps + 1, text =>
    match skipBlanks text with
    | '{' :: rest =>
      match skipBlanks rest with
      | '}' :: rest => some (.map [], rest)
      | rest => members? steps [] rest
    | '[' :: rest =>
      match skipBlanks rest with
      | ']' :: rest => some (.list [], rest)
      | rest => elements? steps [] rest
    | '"' :: rest => (string? [] rest).map fun (s, rest) => (.text s, rest)
    | 'n' :: 'u' :: 'l' :: 'l' :: rest => some (.null, rest)
    | 't' :: 'r' :: 'u' :: 'e' :: rest => some (.boolean true, rest)
    | 'f' :: 'a' :: 'l' :: 's' :: 'e' :: rest => some (.boolean false, rest)
    | rest => number? rest

/-- Reads the elements of a list up to its closing bracket. `done` are those read so far, back to
front. -/
def elements? : (steps : Nat) → (done : List Value) → List Char → Option (Value × List Char)
  | 0, _, _ => none
  | steps + 1, done, text => do
    let (v, rest) ← value? steps text
    match skipBlanks rest with
    | ',' :: rest => elements? steps (v :: done) rest
    | ']' :: rest => some (.list (v :: done).reverse, rest)
    | _ => none

/-- Reads the entries of a map up to its closing brace. `done` are those read so far. -/
def members? : (steps : Nat) → (done : List (String × Value)) → List Char →
    Option (Value × List Char)
  | 0, _, _ => none
  | steps + 1, done, text => do
    match skipBlanks text with
    | '"' :: rest =>
      let (key, rest) ← string? [] rest
      match skipBlanks rest with
      | ':' :: rest =>
        let (v, rest) ← value? steps rest
        let done := Value.put done key v
        match skipBlanks rest with
        | ',' :: rest => members? steps done rest
        | '}' :: rest => some (.map done, rest)
        | _ => none
      | _ => none
    | _ => none

end

def read? (text : String) : Option Value := do
  let chars := text.toList
  let (v, rest) ← value? (chars.length + 1) chars
  if skipBlanks rest = [] then some v else none

mutual

def write : Value → String
  | .null => "null"
  | .boolean b => toString b
  | .unsigned n => toString n.toNat
  | .signed i => toString i.toInt
  | .float x => floatStyle.text x
  | .text s => writeString s
  | .list vs => "[" ++ ",".intercalate (writeList vs) ++ "]"
  | .map entries => "\x7b" ++ ",".intercalate (writeEntries entries) ++ "\x7d"

def writeList : List Value → List String
  | [] => []
  | v :: vs => write v :: writeList vs

def writeEntries : List (String × Value) → List String
  | [] => []
  | entry :: rest => writeEntry entry :: writeEntries rest

def writeEntry : String × Value → String
  | (key, v) => writeString key ++ ":" ++ write v

end

end Archmap.Json

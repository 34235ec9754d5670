import Archmap.Text.CharClass
import Archmap.Text.Segments
import Archmap.Toml.Scalar

/-!
# Settings in environment variables

A variable names a setting by the keys that lead to it, joined by two low lines or by dots, in
letters of either case. Its value is read as one of the values of a document if it has the form of
one, and is a plain text otherwise:

* `true` and `false`;
* a map in braces, with an equals sign between key and value, or a list in brackets;
* a text in double quotes, or a single character in single quotes;
* a number: whole ones are unsigned where that is possible, and a number with a point is a floating
  point number.

White space around a value does not count, but only ASCII white space may stand in front of a form
other than a plain text or number. Inside maps and lists a plain text ends at a comma, bracket or
brace. A value that follows the rules only at its beginning is a plain text as a whole, and then its
white space does count.
-/

namespace Archmap.Environment

def skipBlanks (text : List Char) : List Char :=
  text.dropWhile fun c => c = ' ' ∨ c = '\t' ∨ c = '\n' ∨ c = '\x0c' ∨ c = '\r'

def trim (text : List Char) : List Char :=
  ((text.dropWhile isBlank).reverse.dropWhile isBlank).reverse

/-! ## Plain values -/

/-- The value of a row of decimal digits, which must not be empty. -/
def natural? (row : List Char) : Option Nat :=
  if row = [] || !row.all Char.isDigit then none else some (Toml.ofDigits 10 row)

/-- Splits the sign from a row. A row without a sign has none of either sort. -/
def splitSign : List Char → Option Char × List Char
  | '+' :: row => (some '+', row)
  | '-' :: row => (some '-', row)
  | row => (none, row)

/-- A whole number: unsigned if it has no minus and fits, else signed if it fits. -/
def whole? (row : List Char) : Option Value := do
  let (sign, row) := splitSign row
  let n ← natural? row
  if sign ≠ some '-' then
    if n < UInt64.size then some (.unsigned n.toUInt64) else none
  else if Int64.minValue.toInt ≤ -n then some (.signed (Int64.ofInt (-n)))
  else none

/-- A number with a point: digits on at least one side of it, and perhaps an exponent. -/
def pointed? (row : List Char) : Option Value := do
  let (sign, row) := splitSign row
  let front := row.takeWhile Char.isDigit
  match row.drop front.length with
  | '.' :: behind =>
    let fraction := behind.takeWhile Char.isDigit
    if front = [] ∧ fraction = [] then none
    else
      let exponent ←
        match behind.drop fraction.length with
        | [] => some (0 : Int)
        | c :: row =>
          if c = 'e' ∨ c = 'E' then
            let (sign, row) := splitSign row
            (natural? row).map fun n => if sign = some '-' then -(n : Int) else n
          else none
      some (.float (Decimal.toFloat {
        negative := sign = some '-'
        digits := Toml.ofDigits 10 (front ++ fraction)
        place := exponent - fraction.length }))
  | _ => none

/-- A number or a plain text. -/
def plain (row : List Char) : Value :=
  match (if row.contains '.' then pointed? row else none) with
  | some v => v
  | none =>
    match whole? row with
    | some v => v
    | none => .text (String.ofList row)

/-! ## Quoted texts -/

/-- What stands in front of the closing quote and what stands behind it. A quote behind a backslash
does not close. -/
def upToQuote? : List Char → Option (List Char × List Char)
  | [] => none
  | '"' :: rest => some ([], rest)
  | '\\' :: c :: rest => (upToQuote? rest).map fun (front, rest) => ('\\' :: c :: front, rest)
  | c :: rest => (upToQuote? rest).map fun (front, rest) => (c :: front, rest)

/-- Replaces escapes. `done` is what has been read so far, back to front. -/
def resolve? : (steps : Nat) → (done : List Char) → List Char → Option (List Char)
  | _, done, [] => some done.reverse
  | 0, _, _ => none
  | steps + 1, done, c :: rest =>
    if c = '\\' then do
      let (char, rest) ← Toml.escape? rest
      resolve? steps (char :: done) rest
    else if Toml.isPlain c then resolve? steps (c :: done) rest
    else none

/-- The beginning of a text that takes at most so many bytes. -/
def fitting : (bytes : Nat) → List Char → List Char
  | _, [] => []
  | bytes, c :: rest => if c.utf8Size ≤ bytes then c :: fitting (bytes - c.utf8Size) rest else []

/-- The text between two quotes. Of what stands in front of its first escape, no more bytes are kept
than that has characters; a text without escapes is kept whole. -/
def unquoted? (text : List Char) : Option String := do
  let front := text.takeWhile (· ≠ '\\')
  let escaped := text.drop front.length
  if !front.all Toml.isPlain then none
  else if escaped = [] then some (String.ofList front)
  else
    let behind ← resolve? (escaped.length + 1) [] escaped
    some (String.ofList (fitting front.length front ++ behind))

/-- A text in double quotes, from behind its opening quote on. -/
def quoted? (text : List Char) : Option (String × List Char) := do
  let (inner, rest) ← upToQuote? text
  some (← unquoted? inner, rest)

/-! ## Values of all forms -/

/-- The character ends a plain value. -/
def isSeparator (c : Char) : Bool :=
  ",\x7b\x7d[]".toList.contains c

def key? (text : List Char) : Option (String × List Char) :=
  match text with
  | '"' :: rest => quoted? rest
  | _ =>
    let isKeyPart (c : Char) : Bool := c.isAlphanum || c = '_' || c = '-'
    let key := text.takeWhile isKeyPart
    if key = [] then none else some (String.ofList key, text.dropWhile isKeyPart)

mutual

/-- A value with the white space around it. -/
def value? : (steps : Nat) → List Char → Option (Value × List Char)
  | 0, _ => none
  | steps + 1, text => do
    let (v, rest) ←
      match skipBlanks text with
      | 't' :: 'r' :: 'u' :: 'e' :: rest => some (.boolean true, rest)
      | 'f' :: 'a' :: 'l' :: 's' :: 'e' :: rest => some (.boolean false, rest)
      | '{' :: rest => entries? steps [] rest
      | '[' :: rest => elements? steps [] rest
      | '"' :: rest => (quoted? rest).map fun (s, rest) => (.text s, rest)
      | '\'' :: c :: '\'' :: rest => some (.text (String.singleton c), rest)
      | '\'' :: _ => none
      | rest =>
        let row := rest.takeWhile fun c => !isSeparator c
        some (plain (trim row), rest.drop row.length)
    some (v, skipBlanks rest)

/-- The elements of a list up to its closing bracket. `done` are those read so far, back to
front. -/
def elements? : (steps : Nat) → (done : List Value) → List Char → Option (Value × List Char)
  | 0, _, _ => none
  | _, done, ']' :: rest => some (.list done.reverse, rest)
  | steps + 1, done, text => do
    let (v, rest) ← value? steps text
    match rest with
    | ',' :: rest => elements? steps (v :: done) rest
    | ']' :: rest => some (.list (v :: done).reverse, rest)
    | _ => none

/-- The entries of a map up to its closing brace. `done` are those read so far. -/
def entries? : (steps : Nat) → (done : List (String × Value)) → List Char →
    Option (Value × List Char)
  | 0, _, _ => none
  | _, done, '}' :: rest => some (.map done, rest)
  | steps + 1, done, text => do
    let (key, rest) ← key? (skipBlanks text)
    match skipBlanks rest with
    | '=' :: rest =>
      let (v, rest) ← value? steps rest
      match rest with
      | ',' :: rest => entries? steps (Value.put done key v) rest
      | '}' :: rest => some (.map (Value.put done key v), rest)
      | _ => none
    | _ => none

end

def valueOf (text : String) : Value :=
  match value? (text.length + 1) text.toList with
  | some (v, []) => v
  | _ => .text text

/-! ## Names of variables -/

/-- Takes two low lines for a dot. -/
def dotted : List Char → List Char
  | '_' :: '_' :: rest => '.' :: dotted rest
  | c :: rest => c :: dotted rest
  | [] => []

/-- The keys that the name of a variable stands for; none if one of them would be empty. White space
around the name does not count. -/
def keys? (name : String) : Option (List String) :=
  let keys :=
    (splitDots (dotted (trim name.toList))).map fun key => String.ofList (key.map Char.toLower)
  if keys.contains "" then none else some keys

/-- A value below a path of keys. -/
def nest (keys : List String) (v : Value) : Value :=
  keys.foldr (fun key v => .map [(key, v)]) v

/-- The settings of all variables in one map, the later ones laid over the earlier ones. -/
def layer (settings : List (String × String)) : Value :=
  settings.foldl (fun below (name, text) =>
    match keys? name with
    | some keys => below.overlay (nest keys (valueOf text))
    | none => below) (.map [])

end Archmap.Environment

import Archmap.Data.Value
import Archmap.Decimal.Basic
import Archmap.Json.Text

/-!
# Numbers, truth values and texts in TOML

Whole numbers have a sign and decimal digits, or hexadecimal, octal or binary digits behind `0x`,
`0o` or `0b`, and must fit 64 bits with a sign. Decimal numbers with a fraction or an exponent are
floating point numbers, as are `inf` and `nan`. A low line may stand between two digits.

Texts stand between double quotes, with escapes, or between single quotes, without. Three quotes on
either side let a text run over several lines.
-/

namespace Archmap.Toml

/-! ## Numbers -/

/-- The digits of a row in which single low lines may stand between two digits. -/
def digits? (isDigit : Char → Bool) : List Char → Option (List Char)
  | [] => none
  | [c] => if isDigit c then some [c] else none
  | c :: '_' :: rest => if isDigit c then (digits? isDigit rest).map (c :: ·) else none
  | c :: rest => if isDigit c then (digits? isDigit rest).map (c :: ·) else none

def ofDigits (base : Nat) (digits : List Char) : Nat :=
  digits.foldl (fun n d => base * n + (Json.hexDigit? d).getD 0) 0

/-- A whole number, if it fits 64 bits with a sign. -/
def signed? (i : Int) : Option Value :=
  if Int64.minValue.toInt ≤ i ∧ i ≤ Int64.maxValue.toInt then some (.signed (Int64.ofInt i))
  else none

def based? (base : Nat) (row : List Char) : Option Value := do
  let isDigit (c : Char) : Bool := (Json.hexDigit? c).any (· < base)
  signed? (ofDigits base (← digits? isDigit row))

/-- The digits in front of a point, of which the first is no zero unless it is the only one. -/
def wholeDigits? (row : List Char) : Option (List Char) := do
  let digits ← digits? Char.isDigit row
  if digits.head? = some '0' ∧ 1 < digits.length then none else some digits

def exponent? (row : List Char) : Option Int :=
  match row with
  | '-' :: row => (digits? Char.isDigit row).map fun ds => -(ofDigits 10 ds : Int)
  | '+' :: row => (digits? Char.isDigit row).map fun ds => (ofDigits 10 ds : Int)
  | row => (digits? Char.isDigit row).map fun ds => (ofDigits 10 ds : Int)

/-- A floating point number. One that is too great is refused, while one that is too small is minus
infinity. -/
def bounded? (x : Float) : Option Value :=
  if x == 1.0 / 0.0 then none else some (.float x)

def decimal? (negative : Bool) (row : List Char) : Option Value := do
  let front := row.takeWhile fun c => c ≠ '.' ∧ c ≠ 'e' ∧ c ≠ 'E'
  let whole ← wholeDigits? front
  match row.drop front.length with
  | [] =>
    let n : Int := ofDigits 10 whole
    signed? (if negative then -n else n)
  | '.' :: behind =>
    let places := behind.takeWhile fun c => c ≠ 'e' ∧ c ≠ 'E'
    let fraction ← digits? Char.isDigit places
    let exponent ←
      match behind.drop places.length with
      | [] => some 0
      | _ :: row => exponent? row
    bounded? (Decimal.toFloat {
      negative, digits := ofDigits 10 (whole ++ fraction), place := exponent - fraction.length })
  | _ :: row =>
    let exponent ← exponent? row
    bounded? (Decimal.toFloat { negative, digits := ofDigits 10 whole, place := exponent })

/-- A number or truth value that makes up a whole word. -/
def word? (word : List Char) : Option Value :=
  match word with
  | '0' :: 'x' :: row => based? 16 row
  | '0' :: 'o' :: row => based? 8 row
  | '0' :: 'b' :: row => based? 2 row
  | _ =>
    if word = "true".toList then some (.boolean true)
    else if word = "false".toList then some (.boolean false)
    else
      let (negative, row) :=
        match word with
        | '-' :: row => (true, row)
        | '+' :: row => (false, row)
        | row => (false, row)
      if row = "inf".toList then some (.float (if negative then -1.0 / 0.0 else 1.0 / 0.0))
      else if row = "nan".toList then some (.float (0.0 / 0.0))
      else decimal? negative row

def isWordPart (c : Char) : Bool :=
  c.isAlphanum || "_+-.:".toList.contains c

/-! ## Texts -/

/-- The character may stand in a text or a comment: it is no control apart from the tab. -/
def isPlain (c : Char) : Bool :=
  c = '\t' || (0x20 ≤ c.toNat && c.toNat ≠ 0x7F)

/-- A line break at the front of a text, and the rest. -/
def lineBreak? : List Char → Option (List Char)
  | '\n' :: rest => some rest
  | '\r' :: '\n' :: rest => some rest
  | _ => none

/-- The character that stands for a control or itself behind a backslash. -/
def escaped? : Char → Option Char
  | '"' => some '"'
  | '\\' => some '\\'
  | 'b' => some '\x08'
  | 'f' => some '\x0c'
  | 'n' => some '\n'
  | 'r' => some '\r'
  | 't' => some '\t'
  | _ => none

/-- What an escape behind its backslash stands for, and the rest. -/
def escape? : List Char → Option (Char × List Char)
  | 'u' :: rest => byNumber 4 rest
  | 'U' :: rest => byNumber 8 rest
  | c :: rest => (escaped? c).map (·, rest)
  | [] => none
where
  /-- A character given by so many hexadecimal digits. -/
  byNumber (width : Nat) (rest : List Char) : Option (Char × List Char) := do
    if rest.length < width then none
    let char ← Json.charOf? (← Json.hexValue? (rest.take width))
    some (char, rest.drop width)

/-- The text behind a backslash at the end of a line: blanks up to a line break, then blanks and
line breaks. -/
def joinLines? (rest : List Char) : Option (List Char) :=
  (lineBreak? (rest.dropWhile fun c => c = ' ' ∨ c = '\t')).map
    fun rest => rest.dropWhile fun c => c = ' ' ∨ c = '\t' ∨ c = '\n' ∨ c = '\r'

/-- Reads a text up to its closing quote. `escapes` tells whether a backslash means anything. -/
def line? (quote : Char) (escapes : Bool) :
    (steps : Nat) → (done : List Char) → List Char → Option (String × List Char)
  | 0, _, _ => none
  | _, _, [] => none
  | steps + 1, done, c :: rest =>
    if c = quote then some (String.ofList done.reverse, rest)
    else if c = '\\' && escapes then do
      let (char, rest) ← escape? rest
      line? quote escapes steps (char :: done) rest
    else if isPlain c then line? quote escapes steps (c :: done) rest
    else none

/-- Reads a text over several lines up to its three closing quotes; up to two quotes may stand
directly in front of these. -/
def lines? (quote : Char) (escapes : Bool) :
    (steps : Nat) → (done : List Char) → List Char → Option (String × List Char)
  | 0, _, _ => none
  | _, _, [] => none
  | steps + 1, done, c :: rest =>
    if c = quote then
      let quotes := 1 + (rest.takeWhile (· = quote)).length
      let rest := rest.dropWhile (· = quote)
      if quotes < 3 then lines? quote escapes steps (List.replicate quotes quote ++ done) rest
      else if quotes ≤ 5 then
        some (String.ofList (List.replicate (quotes - 3) quote ++ done).reverse, rest)
      else none
    else if c = '\\' && escapes then
      match joinLines? rest with
      | some rest => lines? quote escapes steps done rest
      | none => do
        let (char, rest) ← escape? rest
        lines? quote escapes steps (char :: done) rest
    else if c = '\r' then
      match rest with
      | '\n' :: rest => lines? quote escapes steps ('\n' :: done) rest
      | _ => none
    else if c = '\n' || isPlain c then lines? quote escapes steps (c :: done) rest
    else none

/-- Reads a text of either sort from its opening quote on, on one line or, if allowed, on
several. -/
def text? (severalLines : Bool) : List Char → Option (String × List Char)
  | c :: rest =>
    if c = '"' ∨ c = '\'' then
      let escapes := c = '"'
      match severalLines, rest with
      | true, a :: b :: more =>
        if a = c ∧ b = c then
          let body := (lineBreak? more).getD more
          lines? c escapes (body.length + 1) [] body
        else line? c escapes (rest.length + 1) [] rest
      | _, _ => line? c escapes (rest.length + 1) [] rest
    else none
  | [] => none

end Archmap.Toml

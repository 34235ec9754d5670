import Archmap.Text.Quoted

/-!
# Texts in JSON

A text stands between double quotes. Behind a backslash stand the letters of the common controls,
the quote, the backslash and the slash themselves, or a UTF-16 unit of four hexadecimal digits; a
character beyond the first plane takes two such units. Writing escapes only what it must.
-/

namespace Archmap.Json

def hexDigit? (c : Char) : Option Nat :=
  if c.isDigit then some (c.toNat - 48)
  else if 'a' ≤ c ∧ c ≤ 'f' then some (c.toNat - 87)
  else if 'A' ≤ c ∧ c ≤ 'F' then some (c.toNat - 55)
  else none

def hexValue? (digits : List Char) : Option Nat :=
  digits.foldlM (fun n d => (hexDigit? d).map (16 * n + ·)) 0

/-- The character with a code point, unless that is half of a surrogate pair or too large. -/
def charOf? (code : Nat) : Option Char :=
  if code.isValidChar then some (Char.ofNat code) else none

/-- The character that stands for itself or a control behind a backslash. -/
def escaped? : Char → Option Char
  | '"' => some '"'
  | '\\' => some '\\'
  | '/' => some '/'
  | 'b' => some '\x08'
  | 'f' => some '\x0c'
  | 'n' => some '\n'
  | 'r' => some '\r'
  | 't' => some '\t'
  | _ => none

/-- The character that two UTF-16 units make together. -/
def surrogatePair? (high low : Nat) : Option Char :=
  if 0xD800 ≤ high ∧ high < 0xDC00 ∧ 0xDC00 ≤ low ∧ low < 0xE000 then
    charOf? (0x10000 + (high - 0xD800) * 0x400 + (low - 0xDC00))
  else none

/-- Reads a text up to its closing quote. `done` are the characters read so far, back to front. -/
def string? (done : List Char) : List Char → Option (String × List Char)
  | [] => none
  | '"' :: rest => some (String.ofList done.reverse, rest)
  | '\\' :: 'u' :: a :: b :: c :: d :: rest => do
    let unit ← hexValue? [a, b, c, d]
    match charOf? unit with
    | some char => string? (char :: done) rest
    | none =>
      match rest with
      | '\\' :: 'u' :: a :: b :: c :: d :: rest =>
        let low ← hexValue? [a, b, c, d]
        let char ← surrogatePair? unit low
        string? (char :: done) rest
      | _ => none
  | '\\' :: c :: rest => do
    let char ← escaped? c
    string? (char :: done) rest
  | c :: rest => if c.toNat < 0x20 then none else string? (c :: done) rest

def writeChar (c : Char) : String :=
  match c with
  | '"' => "\\\""
  | '\\' => "\\\\"
  | '\n' => "\\n"
  | '\r' => "\\r"
  | '\t' => "\\t"
  | c =>
    if c.toNat < 0x20 then
      "\\u00" ++ (if c.toNat < 0x10 then "0" else "") ++ hexDigits c.toNat
    else String.singleton c

def writeString (text : String) : String :=
  "\"" ++ String.join (text.toList.map writeChar) ++ "\""

end Archmap.Json

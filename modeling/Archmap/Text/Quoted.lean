import Archmap.Text.Unprinted
import Archmap.Text.CharClass

/-!
# Quoted text

How messages show a text that was found in the wrong place: between double quotes, with the quote,
the backslash and the common controls behind a backslash, and with every character that has no
printed form of its own given by its code point in hexadecimal.
-/

namespace Archmap

/-- The hexadecimal digits of a code point, without leading zeros. -/
def hexDigits (code : Nat) : String :=
  String.ofList (Nat.toDigits 16 code)

/-- The character is shown by number. -/
def isUnprinted (c : Char) : Bool :=
  c.toNat < 0x20 || CodePoints.unprinted.any (CodePoints.covered c.toNat)

def quoteChar (c : Char) : String :=
  match c with
  | '"' => "\\\""
  | '\\' => "\\\\"
  | '\n' => "\\n"
  | '\r' => "\\r"
  | '\t' => "\\t"
  | '\x00' => "\\0"
  | c => if isUnprinted c then "\\u\x7b" ++ hexDigits c.toNat ++ "\x7d" else String.singleton c

def quote (text : String) : String :=
  "\"" ++ String.join (text.toList.map quoteChar) ++ "\""

end Archmap

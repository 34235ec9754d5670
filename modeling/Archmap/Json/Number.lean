import Archmap.Data.Value
import Archmap.Decimal.Shortest

/-!
# Numbers in JSON

A number without fraction and exponent is a whole number if it fits 64 bits: unsigned if it is not
negative, signed if it is. Every other number is a binary floating point number, minus zero
included.

A floating point number is read in few steps and not always to the nearest: its leading digits, as
many as fit 64 bits, are converted and then multiplied or divided by a power of ten, and each step
rounds. It is written with as few digits as identify it, positionally if its first digit stands
between the sixteenth place in front of the point and the fifth behind it, and otherwise with a
signed exponent.
-/

namespace Archmap.Json

/-! ## Writing -/

def floatStyle : FloatStyle where
  positional := some (-5, 15)
  pointed := true
  tie := .even

/-! ## Reading -/

def digitsValue (digits : List Char) : Nat :=
  digits.foldl (fun n d => 10 * n + (d.toNat - 48)) 0

/-- The digits at the front of a text, and the rest. -/
def spanDigits (text : List Char) : List Char × List Char :=
  (text.takeWhile Char.isDigit, text.dropWhile Char.isDigit)

/-- The digits behind a point at the front of a text. -/
def fraction? : List Char → Option (List Char × List Char)
  | '.' :: rest =>
    let (digits, rest) := spanDigits rest
    if digits = [] then none else some (digits, rest)
  | rest => some ([], rest)

/-- The exponent at the front of a text, if there is one. -/
def exponent? : List Char → Option (Option Int × List Char)
  | c :: rest =>
    if c = 'e' ∨ c = 'E' then
      let (negative, rest) :=
        match rest with
        | '-' :: rest => (true, rest)
        | '+' :: rest => (false, rest)
        | rest => (false, rest)
      let (digits, rest) := spanDigits rest
      if digits = [] then none
      else
        let n : Int := digitsValue digits
        some (some (if negative then -n else n), rest)
    else some (none, c :: rest)
  | [] => some (none, [])

/-- Appends digits to a number for as long as it fits 64 bits, and counts the digits left over. -/
def leading (n : Nat) : List Char → Nat × Nat
  | [] => (n, 0)
  | d :: digits =>
    let longer := 10 * n + (d.toNat - 48)
    if longer < UInt64.size then leading longer digits else (n, digits.length + 1)

def powerOfTen (places : Nat) : Float :=
  Float.ofScientific 1 false places

/-- Divides by a power of ten, by the greatest that there is as often as necessary. -/
def divide (x : Float) (places : Nat) : Float :=
  if places ≤ 308 then x / powerOfTen places
  else if x == 0.0 then x
  else divide (x / powerOfTen 308) (places - 308)
termination_by places

/-- Moves the point by some places. There is no result beyond the range of floating point
numbers. -/
def shift? (x : Float) (places : Int) : Option Float :=
  if places < 0 then some (divide x places.natAbs)
  else if x == 0.0 then some x
  else if places ≤ 308 then
    let y := x * powerOfTen places.toNat
    if y.isFinite then some y else none
  else none

/-- The floating point number with the given digits in front of the point and behind it. -/
def float? (negative : Bool) (digits behind : List Char) (exponent : Int) : Option Float := do
  let (n, dropped) := leading 0 digits
  let (n, ignored) := leading n behind
  let places := exponent + dropped - (behind.length - ignored : Nat)
  let x ← shift? n.toUInt64.toFloat places
  some (if negative then -x else x)

/-- A whole number, classed by its sign; none if it does not fit 64 bits. -/
def whole? (negative : Bool) (n : Nat) : Option Value :=
  if !negative && n < UInt64.size then some (.unsigned n.toUInt64)
  else if negative && 0 < n && Int64.minValue.toInt ≤ -n then some (.signed (Int64.ofInt (-n)))
  else none

/-- Reads a number from the front of a text. -/
def number? (text : List Char) : Option (Value × List Char) := do
  let (negative, rest) :=
    match text with
    | '-' :: rest => (true, rest)
    | rest => (false, rest)
  let (digits, rest) := spanDigits rest
  if digits = [] ∨ (digits.head? = some '0' ∧ 1 < digits.length) then none
  else
    let (behind, rest) ← fraction? rest
    let (exponent, rest) ← exponent? rest
    let whole :=
      if behind = [] ∧ exponent = none then whole? negative (digitsValue digits) else none
    match whole with
    | some v => return (v, rest)
    | none => return (.float (← float? negative digits behind (exponent.getD 0)), rest)

end Archmap.Json

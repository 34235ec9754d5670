/-!
# Decimal numbers

A decimal number is a whole number of units of a power of ten. It can be written positionally, with
all the zeros that this takes, or with an exponent.
-/

namespace Archmap

def twoTo (n : Nat) : Nat := 1 <<< n

def tenTo (n : Nat) : Nat := Nat.pow 10 n

/-- The number `± digits · 10 ^ place`. -/
structure Decimal where
  negative : Bool := false
  digits : Nat
  place : Int
  deriving Repr, DecidableEq

namespace Decimal

def zeros (n : Nat) : String :=
  String.ofList (List.replicate n '0')

/-- The digits of a number in base ten. -/
def figures (n : Nat) : String :=
  String.ofList (Nat.toDigits 10 n)

/-- The power of ten that the first digit stands for. -/
def order (d : Decimal) : Int :=
  (figures d.digits).length - 1 + d.place

/-- The positional text. A point is written only where digits stand behind it. -/
def positional (d : Decimal) : String :=
  let sign := if d.negative then "-" else ""
  let figs := (figures d.digits).toList
  match d.place with
  | .ofNat n => sign ++ figures d.digits ++ zeros n
  | .negSucc n =>
    let behind := n + 1
    if behind < figs.length then
      let whole := figs.length - behind
      sign ++ String.ofList (figs.take whole) ++ "." ++ String.ofList (figs.drop whole)
    else
      sign ++ "0." ++ zeros (behind - figs.length) ++ figures d.digits

/-- The text with the point behind the first digit, if digits follow it, and a signed exponent. -/
def exponential (d : Decimal) : String :=
  let sign := if d.negative then "-" else ""
  let figs := (figures d.digits).toList
  let fraction := if figs.length ≤ 1 then "" else "." ++ String.ofList (figs.drop 1)
  let mark := if d.order < 0 then "e-" else "e+"
  sign ++ String.ofList (figs.take 1) ++ fraction ++ mark ++ figures d.order.natAbs

/-- The binary number nearest to the decimal one. Beyond 400 places on either side of the point
the answer is infinity or zero without further arithmetic. -/
def toFloat (d : Decimal) : Float :=
  let top : Int := (figures d.digits).length + d.place
  let magnitude :=
    if d.digits = 0 ∨ top < -400 then 0.0
    else if 400 < top then 1.0 / 0.0
    else Float.ofScientific d.digits (d.place < 0) d.place.natAbs
  if d.negative then -magnitude else magnitude

end Decimal

end Archmap

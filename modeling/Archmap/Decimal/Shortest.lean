import Archmap.Decimal.Basic

/-!
# The shortest decimal text of a binary number

Among the decimals that a reader would round to the given binary number, the one with the fewest
digits, and of those the nearest, is its text; where two are equally near, a rule for ties chooses.
The search is exact: the number is `m · 2 ^ q`, and the decimals that round to it fill the interval
halfway to its two neighbours, the ends included when `m` is even. For one digit, then two, and so
on, the two points of the decimal grid around the number are tested; if the interval holds any point
of the grid, it holds one of these. Seventeen digits always suffice.
-/

namespace Archmap

/-- Which of two neighbouring whole numbers stands for a number halfway between them. -/
inductive Tie where
  | upper
  | even
  deriving Repr, DecidableEq

/-- The tie between `n` and `n + 1` goes to `n + 1`. -/
def Tie.takesUpper : Tie → (n : Nat) → Bool
  | .upper, _ => true
  | .even, n => n % 2 == 1

/-- A positive binary number `mantissa · 2 ^ exponent`. `least` tells that its lower neighbour is
only half as far away as its upper one, as happens at a power of two. -/
structure Dyadic where
  mantissa : Nat
  exponent : Int
  least : Bool

namespace Dyadic

/-- Numerators of the number, of the lower and of the upper end of its interval, and their common
denominator. -/
structure Interval where
  value : Nat
  low : Nat
  high : Nat
  denominator : Nat

/-- The interval of the reals that are nearest to the number, in quarters of its last place. -/
def interval (d : Dyadic) : Interval :=
  let scale := twoTo (d.exponent - 2).toNat
  { value := 4 * d.mantissa * scale
    low := (4 * d.mantissa - if d.least then 1 else 2) * scale
    high := (4 * d.mantissa + 2) * scale
    denominator := twoTo (2 - d.exponent).toNat }

/-- The greatest `e` with `10 ^ e` at most the number. -/
def decade (i : Interval) : Int :=
  let e : Int := (Decimal.figures i.value).length - (Decimal.figures i.denominator).length
  if i.denominator * tenTo e.toNat ≤ i.value * tenTo (-e).toNat then e else e - 1

/-- The better of the two points of the grid of units `10 ^ place` around the number, if at least
one of them rounds to it. The better point is the nearer one, and `tie` chooses between two equally
near ones. The ends of the interval belong to it if it is `closed`. -/
def onGrid (i : Interval) (closed : Bool) (tie : Tie) (place : Int) : Option Nat :=
  let up := tenTo (-place).toNat
  let unit := i.denominator * tenTo place.toNat
  let lower := i.value * up / unit
  let inside (n : Nat) : Bool :=
    if closed then i.low * up ≤ n * unit && n * unit ≤ i.high * up
    else i.low * up < n * unit && n * unit < i.high * up
  let above := (lower + 1) * unit - i.value * up
  let below := i.value * up - lower * unit
  let upperBetter : Bool := above < below || above == below && tie.takesUpper lower
  match inside lower, inside (lower + 1) with
  | true, true => some (if upperBetter then lower + 1 else lower)
  | true, false => some lower
  | false, true => some (lower + 1)
  | false, false => none

/-- Moves zeros at the end of the digits into the place. -/
def stripZeros : (fuel digits : Nat) → (place : Int) → Decimal
  | fuel + 1, digits, place =>
    if digits ≠ 0 ∧ digits % 10 = 0 then stripZeros fuel (digits / 10) (place + 1)
    else ⟨false, digits, place⟩
  | 0, digits, place => ⟨false, digits, place⟩

/-- The decimal with the fewest digits that rounds to the number. -/
def shortest (d : Dyadic) (tie : Tie) : Decimal :=
  let i := d.interval
  let top := decade i
  let grids := (List.range 17).map fun (k : Nat) => top - (k : Int)
  let point? (place : Int) := (onGrid i (d.mantissa % 2 == 0) tie place).map (·, place)
  match grids.findSome? point? with
  | some (digits, place) => stripZeros 20 digits place
  | none => ⟨false, 0, 0⟩

/-- Sign and exact value of a finite number; `none` for the infinities and for what is no
number. -/
def ofFloat? (x : Float) : Option (Bool × Dyadic) :=
  let bits : Nat := x.toBits.toNat
  let fraction : Nat := bits % twoTo 52
  let field : Nat := bits / twoTo 52 % twoTo 11
  let negative : Bool := bits / twoTo 63 == 1
  if field = 2047 then none
  else if field = 0 then some (negative, ⟨fraction, -1074, false⟩)
  else some (negative, ⟨twoTo 52 + fraction, (field : Int) - 1075, fraction = 0 ∧ 1 < field⟩)

end Dyadic

/-- How binary numbers are written. -/
structure FloatStyle where
  /-- The least and the greatest order of magnitude at which a number is written positionally; at
  every order if there are no bounds. -/
  positional : Option (Int × Int)
  /-- A positional whole number ends in one zero behind a point. -/
  pointed : Bool
  /-- The choice between two texts that are equally short and equally near. -/
  tie : Tie

namespace FloatStyle

def decimalText (style : FloatStyle) (d : Decimal) : String :=
  if style.positional.all fun (least, greatest) => least ≤ d.order && d.order ≤ greatest then
    d.positional ++ if style.pointed && 0 ≤ d.place then ".0" else ""
  else d.exponential

/-- The text of a binary number, with as few digits as identify it. Zero keeps its sign. -/
def text (style : FloatStyle) (x : Float) : String :=
  match Dyadic.ofFloat? x with
  | some (negative, d) =>
    style.decimalText <|
      if d.mantissa = 0 then ⟨negative, 0, 0⟩ else { d.shortest style.tie with negative }
  | none => if x.isNaN then "NaN" else if x < 0 then "-inf" else "inf"

end FloatStyle

end Archmap

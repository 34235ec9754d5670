import Archmap.Text.Additions
import Archmap.Text.Alphabetic
import Archmap.Text.Marks
import Archmap.Text.Numerals

/-!
# Classes of characters

Two classes decide how namespaces are read. A *word* character is what a namespace segment consists
of when a pattern looks at it; an *alphanumeric* character is what a pattern may spell out. The
classes overlap without one containing the other: a superscript two is alphanumeric but no word
character, a combining accent or a joiner the other way round.

ASCII is settled without the tables.
-/

namespace Archmap

/-- The code point lies in one of the ranges, which ascend. -/
def CodePoints.covered (code : Nat) : List (Nat × Nat) → Bool
  | [] => false
  | (first, last) :: ranges => first ≤ code && (code ≤ last || covered code ranges)

def CodePoints.isAlphabetic (code : Nat) : Bool :=
  CodePoints.alphabetic.any (CodePoints.covered code)

/-- Punctuation that joins words, beyond ASCII: ties, and low lines of various shapes. -/
def CodePoints.connectors : List (Nat × Nat) :=
  [(0x203F, 0x2040), (0x2054, 0x2054), (0xFE33, 0xFE34), (0xFE4D, 0xFE4F), (0xFF3F, 0xFF3F)]

/-- The zero-width non-joiner and the zero-width joiner. -/
def CodePoints.joiners : List (Nat × Nat) := [(0x200C, 0x200D)]

/-- Word characters: alphabetic ones, combining marks, decimal digits, connecting punctuation and
the two joiners, unless they are among the latest characters. In ASCII these are letters, digits and
the low line. -/
def isWord (c : Char) : Bool :=
  if c.toNat < 0x80 then c.isAlphanum || c == '_'
  else (CodePoints.isAlphabetic c.toNat
    || CodePoints.marks.any (CodePoints.covered c.toNat)
    || CodePoints.covered c.toNat CodePoints.decimalDigits
    || CodePoints.covered c.toNat CodePoints.connectors
    || CodePoints.covered c.toNat CodePoints.joiners)
    && !CodePoints.covered c.toNat CodePoints.additions

/-- Alphanumeric characters: alphabetic ones and numbers of every kind. In ASCII these are letters
and digits. -/
def isAlphanumeric (c : Char) : Bool :=
  if c.toNat < 0x80 then c.isAlphanum
  else CodePoints.isAlphabetic c.toNat
    || CodePoints.covered c.toNat CodePoints.decimalDigits
    || CodePoints.covered c.toNat CodePoints.otherNumbers

/-- White space: the ASCII controls from tab to carriage return, the space, and the separators
beyond ASCII. -/
def isBlank (c : Char) : Bool :=
  CodePoints.covered c.toNat
    [(0x09, 0x0D), (0x20, 0x20), (0x85, 0x85), (0xA0, 0xA0), (0x1680, 0x1680), (0x2000, 0x200A),
     (0x2028, 0x2029), (0x202F, 0x202F), (0x205F, 0x205F), (0x3000, 0x3000)]

end Archmap

/-!
# Dot-separated segments

Qualified names are texts whose dots separate segments. The text is the primary form; `segments` is
the view of it as a list. A text always has at least one segment, and the empty text has exactly
one, the empty one. `joinSegments` writes a list back, and undoes `segments`.
-/

namespace Archmap

/-- The parts of a text between its dots; `n` dots separate `n + 1` parts. -/
def splitDots : List Char → List (List Char)
  | [] => [[]]
  | c :: cs => if c = '.' then [] :: splitDots cs else (splitDots cs).modifyHead (c :: ·)

def segments (text : String) : List String :=
  (splitDots text.toList).map String.ofList

def joinSegments (parts : List String) : String :=
  ".".intercalate parts

/-- A text in front of its last dot and the rest behind it; no dot leaves all behind. -/
def cutAtLastDot : List Char → Option (List Char) × List Char
  | [] => (none, [])
  | c :: cs =>
    match cutAtLastDot cs with
    | (some front, back) => (some (c :: front), back)
    | (none, back) => if c = '.' then (some [], back) else (none, c :: back)

/-- What is left of `text` behind `start`, if it begins with `start`. -/
def dropStart? : (start text : List Char) → Option (List Char)
  | [], text => some text
  | _ :: _, [] => none
  | a :: start, b :: text => if a = b then dropStart? start text else none

end Archmap

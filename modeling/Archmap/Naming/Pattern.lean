import Archmap.Identifier

/-!
# Naming patterns

A naming pattern makes a module name out of an identifier. `$n` and `${n}` stand for the part with
number `n`, counted from one, and `$@` for all parts with colons between them. Everything else
stands for itself, also a dollar sign that starts none of these, so every text is a pattern.

The pattern is scanned once. Placeholders remember how they were written, because one whose number
the identifier does not reach is left as it stands, and what is inserted is never looked at again.
-/

namespace Archmap

/-- A piece of a naming pattern. -/
inductive NamingSegment where
  | literal (text : String)
  /-- The part with number `index`, written as `source`. -/
  | part (index : Nat) (source : String)
  | joined
  deriving DecidableEq

/-- The piece as it was written. -/
def NamingSegment.source : NamingSegment → String
  | .literal text => text
  | .part _ source => source
  | .joined => "$@"

/-- What the piece contributes to the name of a module. -/
def NamingSegment.apply (identifier : Identifier) : NamingSegment → String
  | .literal text => text
  | .joined => identifier.joined
  | .part index source =>
    match identifier.part index with
    | .ok value => value
    | .error _ => source

/-- A naming pattern and its pieces. -/
structure NamingPattern where
  text : String
  segments : List NamingSegment
  deriving DecidableEq

namespace NamingPattern

/-- The number that a run of decimal digits denotes, if it fits 64 bits; `none` for no digits and
for anything but digits. -/
def index? (digits : List Char) : Option Nat :=
  if digits.isEmpty || !digits.all Char.isDigit then none
  else
    let n := digits.foldl (fun n d => 10 * n + (d.toNat - 48)) 0
    if n < UInt64.size then some n else none

/-- The placeholder that follows a dollar sign, with the number of characters it takes behind the
dollar. Braces reach to the first closing one; bare digits are taken as far as they go. -/
def placeholder? (rest : List Char) : Option (NamingSegment × Nat) :=
  match rest with
  | '@' :: _ => some (.joined, 1)
  | '{' :: inner =>
    let digits := inner.takeWhile (· ≠ '}')
    if inner.contains '}' then
      (index? digits).map fun n =>
        let width := digits.length + 2
        (.part n (String.ofList ('$' :: rest.take width)), width)
    else none
  | _ =>
    let digits := rest.takeWhile Char.isDigit
    (index? digits).map fun n => (.part n (String.ofList ('$' :: digits)), digits.length)

/-- The literal text collected so far, given back to front, as a piece of its own. -/
def flush (literal : List Char) : List NamingSegment :=
  if literal.isEmpty then [] else [.literal (String.ofList literal.reverse)]

/-- Scans a pattern. `literal` is the text since the last placeholder, back to front, and `skip`
the number of characters that still belong to that placeholder. -/
def scan (literal : List Char) (skip : Nat) : List Char → List NamingSegment
  | [] => flush literal
  | c :: rest =>
    match skip with
    | skip + 1 => scan literal skip rest
    | 0 =>
      if c = '$' then
        match placeholder? rest with
        | some (segment, width) => flush literal ++ segment :: scan [] width rest
        | none => scan (c :: literal) 0 rest
      else scan (c :: literal) 0 rest

/-- Reads a naming pattern, which every text is. -/
def ofText (text : String) : NamingPattern :=
  ⟨text, scan [] 0 text.toList⟩

/-- The pattern used where no other is given. -/
def standard : NamingPattern := ofText "Module [$@]"

/-- The name of the module with the given identifier. -/
def apply (pattern : NamingPattern) (identifier : Identifier) : String :=
  String.join (pattern.segments.map (·.apply identifier))

end NamingPattern

end Archmap

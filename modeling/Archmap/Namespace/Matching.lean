import Archmap.Namespace.Shape

/-!
# Matching a namespace

A shape is run from a place in the namespace and yields the places where it can end, the preferred
one first: wildcards take as much as they can, and an earlier alternative comes before a later one.
A place is yielded once, with what was captured on the preferred way to it, since nothing that
follows depends on the captures. So there are never more outcomes than places, and matching takes
polynomial time whatever the pattern.

The match of a namespace is the preferred outcome from the leftmost place that has one.
-/

namespace Archmap

/-- A place in a text: the number of characters in front of it and the text behind it. -/
structure Cursor where
  offset : Nat
  rest : List Char
  deriving DecidableEq

/-- The text captured under a number, by the offsets of its ends. -/
structure Span where
  index : Nat
  start : Nat
  stop : Nat
  deriving DecidableEq

/-- A place where a shape can end, and what has been captured on the way. -/
structure Outcome where
  cursor : Cursor
  spans : List Span
  deriving DecidableEq

/-- The outcome of a shape that captures nothing. -/
def Outcome.plain (cursor : Cursor) : Outcome := ⟨cursor, []⟩

/-- How far a run of segments together with its dots has been read. -/
inductive AnyState where
  /-- Nothing but word characters since the start of the text. -/
  | lead
  /-- Nothing, away from the start of the text: only a dot can follow. -/
  | ready
  /-- Up to a dot. -/
  | behindDot
  /-- Up to a word character behind a dot. -/
  | inSegment
  deriving DecidableEq

namespace Cursor

/-- The places behind one word character, two, and so on, nearest first. -/
def wordEnds (offset : Nat) : List Char → List Cursor
  | [] => []
  | c :: cs => if isWord c then ⟨offset + 1, cs⟩ :: wordEnds (offset + 1) cs else []

/-- The places behind the word characters of a run of segments with single dots between them,
nearest first. `inSegment` tells that a word character stands in front, so that a dot may follow. -/
def segmentsEnds (offset : Nat) (inSegment : Bool) : List Char → List Cursor
  | [] => []
  | c :: cs =>
    if isWord c then ⟨offset + 1, cs⟩ :: segmentsEnds (offset + 1) true cs
    else if c = '.' && inSegment then segmentsEnds (offset + 1) false cs
    else []

/-- The places where a non-empty run of segments together with its dots can end, nearest first:
behind each dot, and at the end of the text. -/
def anyEnds (offset : Nat) (state : AnyState) : List Char → List Cursor
  | [] => if state = .inSegment then [⟨offset, []⟩] else []
  | c :: cs =>
    if c = '.' then
      if state = .behindDot then []
      else ⟨offset + 1, cs⟩ :: anyEnds (offset + 1) .behindDot cs
    else if isWord c then
      match state with
      | .lead => anyEnds (offset + 1) .lead cs
      | .ready => []
      | .behindDot | .inSegment => anyEnds (offset + 1) .inSegment cs
    else []

end Cursor

namespace Outcome

/-- The place among those already yielded, which are the bits of `seen`. -/
def isSeen (seen : Nat) (outcome : Outcome) : Bool :=
  seen.testBit outcome.cursor.offset

/-- The places of a list of outcomes added to those already yielded. -/
def mark (seen : Nat) (outcomes : List Outcome) : Nat :=
  outcomes.foldl (fun seen outcome => seen ||| 1 <<< outcome.cursor.offset) seen

/-- Continues each outcome, in order, and keeps the first way to each place. -/
def continueWith (next : Cursor → List Outcome) (seen : Nat) : List Outcome → List Outcome
  | [] => []
  | outcome :: outcomes =>
    let new := (next outcome.cursor).filter fun o => !isSeen seen o
    new.map (fun o => ⟨o.cursor, outcome.spans ++ o.spans⟩)
      ++ continueWith next (mark seen new) outcomes

end Outcome

namespace Shape

/-- The places where the shape can end if it is run from the given place, the preferred first. -/
def run : Shape → Cursor → List Outcome
  | nothing, cursor => [.plain cursor]
  | literal c, cursor =>
    match cursor.rest with
    | [] => []
    | d :: rest => if c = d then [.plain ⟨cursor.offset + 1, rest⟩] else []
  | segment, cursor => (Cursor.wordEnds cursor.offset cursor.rest).reverse.map .plain
  | segments, cursor => (Cursor.segmentsEnds cursor.offset false cursor.rest).reverse.map .plain
  | anySegments, cursor =>
    let state := if cursor.offset = 0 then .lead else .ready
    (Cursor.anyEnds cursor.offset state cursor.rest).reverse.map .plain ++ [.plain cursor]
  | start, cursor => if cursor.offset = 0 then [.plain cursor] else []
  | finish, cursor => if cursor.rest = [] then [.plain cursor] else []
  | followed first second, cursor => Outcome.continueWith second.run 0 (first.run cursor)
  | either first second, cursor =>
    let preferred := first.run cursor
    let seen := Outcome.mark 0 preferred
    preferred ++ (second.run cursor).filter fun o => !Outcome.isSeen seen o
  | capture index inner, cursor =>
    (inner.run cursor).map fun o =>
      ⟨o.cursor, ⟨index, cursor.offset, o.cursor.offset⟩ :: o.spans⟩

/-- The preferred outcome from the leftmost place that has one. -/
def search? (shape : Shape) (offset : Nat) (text : List Char) : Option Outcome :=
  match shape.run ⟨offset, text⟩ with
  | outcome :: _ => some outcome
  | [] =>
    match text with
    | [] => none
    | _ :: rest => search? shape (offset + 1) rest

end Shape

end Archmap

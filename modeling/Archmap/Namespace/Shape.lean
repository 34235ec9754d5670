import Archmap.Namespace.Token

/-!
# The shape of a namespace pattern

The tokens of a pattern form a tree of sequences, alternatives and captures. The reader keeps a
stack of the groups that are open; it fails at the first closing bracket without an open group and,
at the end, at the group opened last that is still open.

A pattern is tied to the ends of the namespace by anchors in front of it and behind it. A bar binds
weaker than these: of several alternatives outside all groups only the first is tied to the start
and only the last to the end.
-/

namespace Archmap

/-- What a namespace pattern looks for. -/
inductive Shape where
  | nothing
  | literal (c : Char)
  /-- Some word characters, at least one. -/
  | segment
  /-- Segments with dots between them, at least one. -/
  | segments
  /-- Any run of segments together with the dots around it, or nothing. -/
  | anySegments
  | start
  | finish
  | followed (first second : Shape)
  /-- One shape or, if need be, another. -/
  | either (first second : Shape)
  /-- A shape whose text is kept under a number. -/
  | capture (index : Nat) (inner : Shape)
  deriving DecidableEq

/-- A fault in the nesting of groups; the number is the position of the bracket among the tokens. -/
inductive GroupFault where
  | unopened (position : Nat)
  | unclosed (position : Nat)
  deriving DecidableEq

/-- A group that is being read. -/
structure Frame where
  /-- The number of the capture that the group is; `none` for a group that captures nothing. -/
  index : Option Nat
  /-- The position of the opening bracket among the tokens. -/
  position : Nat
  /-- The alternatives in front of the last bar. -/
  earlier : Option Shape
  /-- What has been read since. -/
  current : Shape

namespace Frame

def fresh (index : Option Nat) (position : Nat) : Frame :=
  ⟨index, position, none, .nothing⟩

/-- Adds a shape at the end of the current alternative. -/
def append (frame : Frame) (shape : Shape) : Frame :=
  { frame with current := .followed frame.current shape }

/-- All alternatives read so far as one shape. -/
def alternatives (frame : Frame) : Shape :=
  match frame.earlier with
  | none => frame.current
  | some shape => .either shape frame.current

def split (frame : Frame) : Frame :=
  { frame with earlier := some frame.alternatives, current := .nothing }

def closed (frame : Frame) : Shape :=
  match frame.index with
  | none => frame.alternatives
  | some index => .capture index frame.alternatives

end Frame

namespace Shape

/-- Reads tokens into the innermost open group `top`, which lies in the groups of `outer`. So far
`opened` captures have been opened and `position` tokens read. -/
def read (outer : List Frame) (top : Frame) (opened position : Nat) :
    List PatternToken → Except GroupFault Shape
  | [] =>
    match outer with
    | [] => .ok (top.append .finish).alternatives
    | _ :: _ => .error (.unclosed top.position)
  | token :: rest =>
    match token with
    | .literal c => read outer (top.append (.literal c)) opened (position + 1) rest
    | .dot => read outer (top.append (.literal '.')) opened (position + 1) rest
    | .anySegments => read outer (top.append .anySegments) opened (position + 1) rest
    | .segment => read outer (top.append .segment) opened (position + 1) rest
    | .captureSegments =>
      read outer (top.append (.capture (opened + 1) .segments)) (opened + 1) (position + 1) rest
    | .openCapture =>
      read (top :: outer) (.fresh (some (opened + 1)) position) (opened + 1) (position + 1) rest
    | .openGroup => read (top :: outer) (.fresh none position) opened (position + 1) rest
    | .close =>
      match outer with
      | [] => .error (.unopened position)
      | frame :: outer => read outer (frame.append top.closed) opened (position + 1) rest
    | .bar => read outer top.split opened (position + 1) rest

/-- The shape of a whole pattern, tied to the ends of the namespace. -/
def ofTokens (tokens : List PatternToken) : Except GroupFault Shape :=
  read [] ((Frame.fresh none 0).append .start) 0 0 tokens

end Shape

end Archmap

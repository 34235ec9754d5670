import Archmap.Namespace.Matching
import Archmap.Identifier
import Archmap.Class.Basic

/-!
# Namespace patterns

A pattern text is checked and read into a shape. The check runs in a fixed order, so that a text
with several faults has one answer: three dots in a row, then an attempt to capture two dots, then
the first character that no pattern may contain, then the nesting of groups.

A pattern identifies modules. The texts captured from the namespace of a class are the parts of its
module's identifier; a class whose namespace does not match, or leaves a capture empty, is ignored.
-/

namespace Archmap

/-- What is wrong with the text of a namespace pattern. -/
inductive PatternFault where
  | threeDots
  /-- It has two dots alone in round brackets. -/
  | dotCapture
  /-- It has a character that no pattern may contain; this is the first. -/
  | unsupported (c : Char)
  | groups (fault : GroupFault)
  deriving DecidableEq

/-- A text that is no namespace pattern, and why. -/
structure PatternError where
  pattern : String
  fault : PatternFault
  deriving DecidableEq

namespace PatternError

/-- Four lines on unbalanced groups: what failed, the expansion of the pattern, a mark below the
bracket at fault, and what is wrong with it. -/
def groupReport (tokens : List PatternToken) (position : Nat) (complaint : String) : String :=
  let expansion (ts : List PatternToken) := String.join (ts.map PatternToken.expansion)
  let column := 1 + (expansion (tokens.take position)).length
  "regex parse error:\n"
    ++ "    ^" ++ expansion tokens ++ "$\n"
    ++ "    " ++ String.ofList (List.replicate column ' ') ++ "^\n"
    ++ "error: " ++ complaint

/-- The reason given for a fault in a pattern. -/
def reason (e : PatternError) : String :=
  match e.fault with
  | .threeDots => "may not contain more than two '.' in a row"
  | .dotCapture => "capturing via (..) is not supported, use (**) instead"
  | .unsupported c =>
    "unsupported character '" ++ String.singleton c
      ++ "', only identifier characters and '.*()[]|' are allowed"
  | .groups (.unopened position) =>
    groupReport (PatternToken.scan e.pattern.toList) position "unopened group"
  | .groups (.unclosed position) =>
    groupReport (PatternToken.scan e.pattern.toList) position "unclosed group"

def message (e : PatternError) : String :=
  "Invalid namespace pattern '" ++ e.pattern ++ "': " ++ e.reason

end PatternError

/-- A namespace pattern that has been read. -/
structure NamespacePattern where
  text : String
  shape : Shape
  /-- How many captures the pattern has. -/
  captures : Nat
  deriving DecidableEq

namespace NamespacePattern

/-- The piece stands somewhere in the text. -/
def occurs (piece : List Char) : List Char → Bool
  | [] => piece.isEmpty
  | c :: rest => piece.isPrefixOf (c :: rest) || occurs piece rest

theorem occurs_iff_isInfix {piece text : List Char} :
    occurs piece text = true ↔ piece <:+: text := by
  induction text with
  | nil => simp [occurs]
  | cons c rest ih => simp [occurs, List.infix_cons_iff, ih]

/-- The first fault of a pattern text apart from its groups. -/
def spellingFault? (text : List Char) : Option PatternFault :=
  if occurs "...".toList text then some .threeDots
  else if occurs "(..)".toList text then some .dotCapture
  else (text.find? fun c => !isPatternChar c).map .unsupported

def ofText (text : String) : Except PatternError NamespacePattern :=
  match spellingFault? text.toList with
  | some fault => .error ⟨text, fault⟩
  | none =>
    let tokens := PatternToken.scan text.toList
    match Shape.ofTokens tokens with
    | .error fault => .error ⟨text, .groups fault⟩
    | .ok shape => .ok ⟨text, shape, tokens.countP PatternToken.captures⟩

/-- The text of a capture; empty if the capture took no part in the match. -/
def captured (text : List Char) (spans : List Span) (index : Nat) : String :=
  match spans.find? (·.index = index) with
  | some span => String.ofList ((text.drop span.start).take (span.stop - span.start))
  | none => ""

/-- Matches a namespace and gives the texts of the captures in their order. -/
def match? (pattern : NamespacePattern) (ns : String) : Option (List String) :=
  (pattern.shape.search? 0 ns.toList).map fun outcome =>
    (List.range pattern.captures).map fun i => captured ns.toList outcome.spans (i + 1)

def accepts (pattern : NamespacePattern) (ns : String) : Bool :=
  (pattern.match? ns).isSome

/-- The capture with the given number, counted from one. -/
def group? (groups : List String) (index : Nat) : Option String :=
  match index with
  | 0 => none
  | i + 1 => groups[i]?

/-- The identifier of the module that a class belongs to. -/
def identify (pattern : NamespacePattern) (cls : Class) : Identifier :=
  match pattern.match? cls.name.enclosingNamespace with
  | none => .ignore
  | some groups =>
    match Identifier.ofParts groups with
    | .ok identifier => identifier
    | .error _ => .ignore

end NamespacePattern

end Archmap

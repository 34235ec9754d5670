import Archmap.Text.CharClass

/-!
# Tokens of namespace patterns

A namespace pattern is written with wildcards, groups and literal characters:

* `*` stands for one segment or a piece of one, `(**)` for one or more segments with dots between
  them, and `..` for any run of segments, also an empty one;
* round brackets capture what they enclose, square brackets only group; either closing bracket
  closes either sort of group;
* a bar separates alternatives.

Each token has an expansion, the regular expression that says the same. Messages about unbalanced
groups show the expansion of the whole pattern, so its text is part of the interface.
-/

namespace Archmap

/-- A token of a namespace pattern. -/
inductive PatternToken where
  | literal (c : Char)
  | dot
  /-- Two dots. -/
  | anySegments
  /-- A star. -/
  | segment
  /-- Two stars in round brackets. -/
  | captureSegments
  /-- An opening round bracket. -/
  | openCapture
  /-- An opening square bracket. -/
  | openGroup
  /-- A closing bracket of either sort. -/
  | close
  /-- A bar. -/
  | bar
  deriving DecidableEq

namespace PatternToken

/-- The regular expression for a token. -/
def expansion : PatternToken → String
  | literal c => if c = '$' then "\\$" else String.singleton c
  | dot => "\\."
  | anySegments => "(?:(?:^\\w*)?\\.(?:\\w+\\.)*(?:\\w*$)?)?"
  | segment => "\\w+"
  | captureSegments => "(\\w+(?:\\.\\w+)*)"
  | openCapture => "("
  | openGroup => "(?:"
  | close => ")"
  | bar => "|"

/-- The token opens a numbered capture. -/
def captures : PatternToken → Bool
  | captureSegments | openCapture => true
  | _ => false

/-- The tokens of a pattern text. -/
def scan : List Char → List PatternToken
  | [] => []
  | '(' :: '*' :: '*' :: ')' :: cs => captureSegments :: scan cs
  | '.' :: '.' :: cs => anySegments :: scan cs
  | '.' :: cs => dot :: scan cs
  | '*' :: cs => segment :: scan cs
  | '(' :: cs => openCapture :: scan cs
  | '[' :: cs => openGroup :: scan cs
  | ')' :: cs => close :: scan cs
  | ']' :: cs => close :: scan cs
  | '|' :: cs => bar :: scan cs
  | c :: cs => literal c :: scan cs

end PatternToken

/-- The characters that a namespace pattern may contain. -/
def isPatternChar (c : Char) : Bool :=
  isAlphanumeric c || "_$.*()[]|".toList.contains c

end Archmap

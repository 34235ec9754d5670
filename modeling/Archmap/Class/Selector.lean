import Archmap.Class.Basic

/-!
# Selecting classes

A selector states conditions on a class, all of which must hold. It may also be limited to a number
of hits; then its answer depends on how often it has been asked before, so asking is a step of a
state that holds the number of hits so far.
-/

namespace Archmap

/-- Conditions on a class; a condition that is not given always holds. -/
structure Selector where
  ending : Option String := none
  beginning : Option String := none
  metadataKind : Option String := none
  names : Option (List String) := none
  /-- How many hits are answered with yes. -/
  limit : Option Nat := none

namespace Selector

/-- The class meets all conditions. -/
def holds (selector : Selector) (cls : Class) : Bool :=
  let simple := cls.name.simpleName.toList
  selector.ending.all (fun s => s.toList.isSuffixOf simple)
    && selector.beginning.all (fun s => s.toList.isPrefixOf simple)
    && selector.metadataKind.all cls.hasMetadata
    && selector.names.all (fun names => names.contains cls.name.text)

/-- Asks whether the class is selected, and counts it if it meets the conditions. -/
def ask (selector : Selector) (cls : Class) : StateM Nat Bool := fun hits =>
  if selector.holds cls then (selector.limit.all (hits < ·), hits + 1) else (false, hits)

end Selector

end Archmap

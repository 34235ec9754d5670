/-!
# Module identifiers

A module is identified by a non-empty list of non-empty parts. The list without any part is not the
identifier of a module: a class that is mapped to it belongs to no module and is *ignored*.
Identifiers are ordered as lists of texts.
-/

namespace Archmap

/-- A list of non-empty parts; without parts it is the mark of ignored classes. -/
structure Identifier where
  parts : List String
  proper : ∀ part ∈ parts, part ≠ ""
  deriving DecidableEq

/-- Why a list of texts does not identify a module. -/
inductive Identifier.Error where
  | empty
  /-- The part with this number, counted from one, is the first that is empty. -/
  | emptyPart (index : Nat)
  deriving DecidableEq

def Identifier.Error.message : Identifier.Error → String
  | .empty => "Identifier must consist of at least one part"
  | .emptyPart index => "Identifier part " ++ toString index ++ " must not be empty"

/-- A part was asked for that the identifier does not have. -/
structure Identifier.PartError where
  index : Nat
  numberOfParts : Nat
  deriving DecidableEq

def Identifier.PartError.message (e : Identifier.PartError) : String :=
  "Index " ++ toString e.index ++ " is out of bounds for an identifier with "
    ++ toString e.numberOfParts ++ " parts (parts are 1-based)"

namespace Identifier

/-- The mark of classes that belong to no module. -/
def ignore : Identifier := ⟨[], by simp⟩

def ofParts (parts : List String) : Except Identifier.Error Identifier :=
  if parts = [] then .error .empty
  else if proper : ∀ part ∈ parts, part ≠ "" then .ok ⟨parts, proper⟩
  else .error (.emptyPart (parts.findIdx (· = "") + 1))

/-- Exactly the lists of parts that are not empty, nor contain an empty part, identify a module. -/
theorem ofParts_eq_ok_iff {parts : List String} {identifier : Identifier} :
    ofParts parts = .ok identifier ↔ parts ≠ [] ∧ identifier.parts = parts := by
  constructor
  · intro h
    unfold ofParts at h
    split at h
    · cases h
    · rename_i ne_nil
      split at h <;> cases h
      exact ⟨ne_nil, rfl⟩
  · rintro ⟨ne_nil, rfl⟩
    rw [ofParts, if_neg ne_nil, dif_pos identifier.proper]

def isIgnored (identifier : Identifier) : Bool :=
  identifier.parts.isEmpty

/-- The identifiers of a list in ascending order, equal ones side by side. -/
def sort (identifiers : List Identifier) : List Identifier :=
  identifiers.mergeSort fun a b => !decide (b.parts < a.parts)

/-- The part with the given number, counted from one. -/
def part (identifier : Identifier) (index : Nat) : Except Identifier.PartError String :=
  match index with
  | 0 => .error ⟨0, identifier.parts.length⟩
  | i + 1 =>
    match identifier.parts[i]? with
    | some part => .ok part
    | none => .error ⟨i + 1, identifier.parts.length⟩

def joined (identifier : Identifier) : String :=
  ":".intercalate identifier.parts

/-- A list of parts as messages show it. -/
def bracketed (parts : List String) : String :=
  "[" ++ ", ".intercalate parts ++ "]"

/-- The identifier as messages show it. -/
def text (identifier : Identifier) : String :=
  bracketed identifier.parts

end Identifier

end Archmap

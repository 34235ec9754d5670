import Archmap.Data.Value
import Archmap.Class.Name
import Archmap.Identifier
import Archmap.Text.Quoted
import Archmap.Json.Number

/-!
# Decoding data values

A record is decoded from a map of its fields or from a list of them in the order of their
declaration. Decoding stops at the first fault. In a map the fields are looked at in the order of
their names, keys that name no field are passed over, and only then fields are missed; in a list a
missing field is a fault of the length at that place.

A fault knows where it is and what is wrong there. How it is worded depends on the format that the
value was read from, so there are two wordings.
-/

namespace Archmap

/-- What a decoder asks for. -/
inductive Wanted where
  | string
  | boolean
  | count
  | sequence
  | map
  | record (name : String)
  deriving DecidableEq

/-- What is wrong with a value. -/
inductive Defect where
  | wrongSort (given : Value) (wanted : Wanted)
  | negative (given : Int64)
  | missingField (name : String)
  /-- The list ends before the fields of the record do. -/
  | tooShort (length : Nat) (record : String) (fields : Nat)
  /-- The list goes on behind the fields of the record. -/
  | tooLong (length : Nat)
  | className (e : ClassName.Error)
  | identifier (e : Identifier.Error)

/-- A defect and the keys that lead to it; an element of a list is found by its position. -/
structure Fault where
  path : List String
  defect : Defect

abbrev Decoded (α : Type) := Except Fault α

/-- Whether a list may go on behind the fields of a record. -/
inductive Surplus where
  | refused
  | ignored
  deriving DecidableEq

namespace Wanted

/-- How messages call what is asked for. -/
def text : Wanted → String
  | string => "a string"
  | boolean => "a boolean"
  | count => "usize"
  | sequence => "a sequence"
  | map => "a map"
  | record name => "struct " ++ name

end Wanted

namespace Decoded

/-- A decoder that fails here. -/
def fail (defect : Defect) : Decoded α := .error ⟨[], defect⟩

/-- The result for what lies below a key. -/
def below (key : String) : Decoded α → Decoded α
  | .ok a => .ok a
  | .error fault => .error { fault with path := key :: fault.path }

end Decoded

namespace Value

def asText : Value → Decoded String
  | text s => .ok s
  | v => .fail (.wrongSort v .string)

def asBoolean : Value → Decoded Bool
  | boolean b => .ok b
  | v => .fail (.wrongSort v .boolean)

/-- A count: a whole number that is not negative, however it was classed. -/
def asCount : Value → Decoded UInt64
  | unsigned n => .ok n
  | signed i => if i < 0 then .fail (.negative i) else .ok i.toUInt64
  | v => .fail (.wrongSort v .count)

/-- Decodes elements, of which the first has the given position. -/
def elements (decode : Value → Decoded α) (position : Nat) : List Value → Decoded (List α)
  | [] => .ok []
  | v :: vs => do
    let a ← (decode v).below (toString position)
    return a :: (← elements decode (position + 1) vs)

def asList (decode : Value → Decoded α) : Value → Decoded (List α)
  | list vs => elements decode 0 vs
  | v => .fail (.wrongSort v .sequence)

def entryValues (decode : Value → Decoded α) :
    List (String × Value) → Decoded (List (String × α))
  | [] => .ok []
  | (key, v) :: rest => do
    let a ← (decode v).below key
    return (key, a) :: (← entryValues decode rest)

def asMap (decode : Value → Decoded α) : Value → Decoded (List (String × α))
  | map entries => entryValues decode entries
  | v => .fail (.wrongSort v .map)

/-! ## Fields of records -/

/-- The field with the given name among the entries of a map, if it is there. -/
def field? (entries : List (String × Value)) (name : String) (decode : Value → Decoded α) :
    Decoded (Option α) :=
  match entries.lookup name with
  | none => .ok none
  | some v => ((decode v).below name).map some

/-- A field that must be there. -/
def required (name : String) : Option α → Decoded α
  | some a => .ok a
  | none => .fail (.missingField name)

/-- The element at a position, if the list is that long. -/
def element? (values : List Value) (position : Nat) (decode : Value → Decoded α) :
    Decoded (Option α) :=
  match values[position]? with
  | none => .ok none
  | some v => ((decode v).below (toString position)).map some

/-- An element that must be there in a list of the fields of a record. -/
def element (values : List Value) (position : Nat) (record : String) (fields : Nat)
    (decode : Value → Decoded α) : Decoded α := do
  match ← element? values position decode with
  | some a => return a
  | none => .fail (.tooShort position record fields)

/-- The end of a list of the fields of a record. -/
def finished (surplus : Surplus) (values : List Value) (fields : Nat) : Decoded Unit :=
  if surplus = .refused ∧ fields < values.length then .fail (.tooLong values.length) else .ok ()

end Value

/-! ## Wording -/

/-- How a format speaks of values. -/
structure Wording where
  /-- What stands in front of a value of the wrong sort. -/
  wrongSort : String
  /-- What stands in front of a number that must not be negative. -/
  negative : String
  boolean : Bool → String
  unsigned : String
  signed : String
  float : Float → String

namespace Wording

def json : Wording where
  wrongSort := "invalid type: "
  negative := "invalid value: "
  boolean b := "boolean `" ++ toString b ++ "`"
  unsigned := "integer"
  signed := "integer"
  float x := "floating point `" ++ Json.floatStyle.text x ++ "`"

/-- Floating point numbers in messages about settings: always positional, and a whole number without
a point. -/
def settingsFloat : FloatStyle where
  positional := none
  pointed := false
  tie := .upper

def settings : Wording where
  wrongSort := "invalid type: found "
  negative := "invalid value "
  boolean b := "bool " ++ toString b
  unsigned := "unsigned int"
  signed := "signed int"
  float x := "float `" ++ settingsFloat.text x ++ "`"

/-- How a value is called. -/
def name (wording : Wording) : Value → String
  | .null => "null"
  | .boolean b => wording.boolean b
  | .unsigned n => wording.unsigned ++ " `" ++ toString n.toNat ++ "`"
  | .signed i => wording.signed ++ " `" ++ toString i.toInt ++ "`"
  | .float x => wording.float x
  | .text s => "string " ++ quote s
  | .list _ => "sequence"
  | .map _ => "map"

end Wording

def Defect.message (wording : Wording) : Defect → String
  | wrongSort given wanted =>
    wording.wrongSort ++ wording.name given ++ ", expected " ++ wanted.text
  | negative given =>
    wording.negative ++ wording.name (.signed given) ++ ", expected " ++ Wanted.count.text
  | missingField name => "missing field `" ++ name ++ "`"
  | tooShort length record fields =>
    "invalid length " ++ toString length ++ ", expected struct " ++ record ++ " with "
      ++ toString fields ++ (if fields = 1 then " element" else " elements")
  | tooLong length => "invalid length " ++ toString length ++ ", expected fewer elements in array"
  | className e => e.message
  | identifier e => e.message

end Archmap

import Archmap.Data.Value

/-!
# Dates and times in TOML

A date is a year of four digits, a month and a day; a time is an hour, a minute and a second,
perhaps with a fraction. A date may be followed by a time, after a `T` or one space, and this by an
offset.
No setting is a date, so a reader only finds out where one ends.
-/

namespace Archmap.Toml

/-- A number of two digits at the front of a text, and the rest. -/
def twoDigits? : List Char → Option (Nat × List Char)
  | a :: b :: rest =>
    if a.isDigit && b.isDigit then some (10 * (a.toNat - 48) + (b.toNat - 48), rest) else none
  | _ => none

/-- The rest behind one given character. -/
def behind? (c : Char) : List Char → Option (List Char)
  | d :: rest => if c = d then some rest else none
  | [] => none

def daysOf (year month : Nat) : Nat :=
  if month = 2 then
    if year % 4 = 0 ∧ (year % 100 ≠ 0 ∨ year % 400 = 0) then 29 else 28
  else if month ∈ [4, 6, 9, 11] then 30
  else 31

def date? (text : List Char) : Option (List Char) := do
  let (century, rest) ← twoDigits? text
  let (year, rest) ← twoDigits? rest
  let (month, rest) ← twoDigits? (← behind? '-' rest)
  let (day, rest) ← twoDigits? (← behind? '-' rest)
  if 1 ≤ month ∧ month ≤ 12 ∧ 1 ≤ day ∧ day ≤ daysOf (100 * century + year) month then some rest
  else none

/-- The rest behind a time. The sixtieth second of a minute is a leap second. -/
def time? (text : List Char) : Option (List Char) := do
  let (hour, rest) ← twoDigits? text
  let (minute, rest) ← twoDigits? (← behind? ':' rest)
  let (second, rest) ← twoDigits? (← behind? ':' rest)
  if hour ≤ 23 ∧ minute ≤ 59 ∧ second ≤ 60 then
    match rest with
    | '.' :: digit :: more =>
      if digit.isDigit then some (more.dropWhile Char.isDigit) else some rest
    | _ => some rest
  else none

/-- The rest behind an offset: a `Z`, or hours and minutes with a sign. -/
def offset? (text : List Char) : Option (List Char) :=
  match text with
  | [] => none
  | c :: rest =>
    if c = 'Z' ∨ c = 'z' then some rest
    else if c = '+' ∨ c = '-' then do
      let (hour, rest) ← twoDigits? rest
      let (minute, rest) ← twoDigits? (← behind? ':' rest)
      if hour ≤ 23 ∧ minute ≤ 59 then some rest else none
    else none

/-- The rest behind a date, a time, or both. -/
def dateTime? (text : List Char) : Option (List Char) :=
  match date? text with
  | none => time? text
  | some rest =>
    match rest with
    | [] => some []
    | c :: more =>
      if c = 'T' ∨ c = 't' ∨ c = ' ' then
        match time? more with
        | none => some rest
        | some rest => some ((offset? rest).getD rest)
      else some rest

/-- The value of a date or time: a map whose only key is known to no section. -/
def dateTimeValue : Value := .map [("datetime", .null)]

end Archmap.Toml

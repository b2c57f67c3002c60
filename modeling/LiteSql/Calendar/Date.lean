import LiteSql.Calendar.Scan

/-!
# Calendar dates

Days of the Gregorian calendar, extended backwards, from the year -262143 to the
year 262142. Years from 0 to 9999 are written with four digits, all others with a
sign and at least four digits.
-/

namespace LiteSql.Calendar

/-- Whether the year has a 29th of February. -/
def isLeapYear (year : Int) : Bool :=
  (year % 4 == 0 && year % 100 != 0) || year % 400 == 0

/-- The number of days of a month. -/
def daysInMonth (year : Int) (month : Nat) : Nat :=
  if month = 2 then if isLeapYear year then 29 else 28
  else if month = 4 ∨ month = 6 ∨ month = 9 ∨ month = 11 then 30
  else 31

/-- Whether the three numbers name a day of the calendar. -/
def IsDay (year : Int) (month day : Nat) : Prop :=
  (-262143 ≤ year ∧ year ≤ 262142) ∧ (1 ≤ month ∧ month ≤ 12) ∧
    (1 ≤ day ∧ day ≤ daysInMonth year month)

instance (year : Int) (month day : Nat) : Decidable (IsDay year month day) :=
  inferInstanceAs (Decidable (_ ∧ _ ∧ _))

/-- A day of the calendar. -/
structure Date where
  year : Int
  month : Nat
  day : Nat
  isDay : IsDay year month day
deriving DecidableEq

namespace Date

/-- The day with the given numbers, if there is one. -/
def ofNumbers? (year : Int) (month day : Nat) : Option Date :=
  if h : IsDay year month day then some ⟨year, month, day, h⟩ else none

/-- The year as text. -/
def yearText (year : Int) : Text :=
  if 0 ≤ year ∧ year ≤ 9999 then Text.padded 4 year.natAbs
  else (if year < 0 then '-' else '+') :: Text.padded 4 year.natAbs

/-- Year, month and day with hyphens between them. -/
def text (d : Date) : Text :=
  yearText d.year ++ '-' :: (Text.padded 2 d.month ++ '-' :: Text.padded 2 d.day)

/-- Year, month and day at the front of a text. -/
def scan : Scan Date := do
  let y ← Calendar.year
  separator '-'
  let m ← number 2
  separator '-'
  let d ← number 2
  match ofNumbers? y m d with
  | some date => pure date
  | none => failure

/-- Reads a date that takes the whole text. -/
def ofText? (s : Text) : Option Date :=
  readAll scan s

end Date

end LiteSql.Calendar

import LiteSql.Calendar.Date
import LiteSql.Calendar.Time

/-!
# Moments without a zone

A date and a time of day. In SQL a space stands between the two, in JSON trees the
letter `T`.
-/

namespace LiteSql.Calendar

/-- A date with a time of day. -/
structure DateTime where
  date : Date
  time : Time
deriving DecidableEq

namespace DateTime

/-- Date and time with the given character between them. -/
def textWith (mark : Char) (dt : DateTime) : Text :=
  dt.date.text ++ mark :: dt.time.text

/-- The form used in SQL text. -/
def text (dt : DateTime) : Text :=
  dt.textWith ' '

/-- Date, `T` and time at the front of a text. -/
def scan : Scan DateTime := do
  let d ← Date.scan
  separator 'T'
  let t ← Time.scan
  return ⟨d, t⟩

/-- Reads a moment that takes the whole text. -/
def ofText? (s : Text) : Option DateTime :=
  readAll scan s

end DateTime

end LiteSql.Calendar

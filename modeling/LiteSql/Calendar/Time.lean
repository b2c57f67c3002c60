import LiteSql.Calendar.Scan

/-!
# Times of day

A time is a second of the day and the nanoseconds since the start of this second. From
`10 ^ 9` nanoseconds on, it lies in a leap second that follows the second of the day.

The text has the hour, the minute, the second and the fraction. In a leap second the
number of the second is one more: `60` at the end of a minute, and inside of a minute
the number of the next second, so that the text is the one of an ordinary time. When a
text is read, the second 60 stands for a leap second and may end any minute. The fraction
is written with three, six or nine digits, whichever is the first to be exact, and left
out when it is zero.
-/

namespace LiteSql.Calendar

/-- A time of day. -/
structure Time where
  /-- The seconds since midnight. -/
  seconds : Nat
  nanoseconds : Nat
  seconds_lt : seconds < 86400
  nanoseconds_lt : nanoseconds < 2000000000
deriving DecidableEq

namespace Time

def hour (t : Time) : Nat :=
  t.seconds / 3600

def minute (t : Time) : Nat :=
  t.seconds / 60 % 60

/-- The second of the minute, one more in a leap second. -/
def second (t : Time) : Nat :=
  t.seconds % 60 + t.nanoseconds / 1000000000

/-- The nanoseconds of the second. -/
def nanosecond (t : Time) : Nat :=
  t.nanoseconds % 1000000000

/-- The time with the given numbers, if they are in range. The second 60 is the leap
second after the second 59. -/
def ofNumbers? (hour minute second nanosecond : Nat) : Option Time :=
  if h : hour < 24 ∧ minute < 60 ∧ second < 60 ∧ nanosecond < 1000000000 then
    some ⟨hour * 3600 + minute * 60 + second, nanosecond, by omega, by omega⟩
  else if h : hour < 24 ∧ minute < 60 ∧ second = 60 ∧ nanosecond < 1000000000 then
    some ⟨hour * 3600 + minute * 60 + 59, 1000000000 + nanosecond, by omega, by omega⟩
  else none

/-- The fraction of a second with its point, or nothing. -/
def fractionText (nanosecond : Nat) : Text :=
  if nanosecond = 0 then []
  else if nanosecond % 1000000 = 0 then '.' :: Text.padded 3 (nanosecond / 1000000)
  else if nanosecond % 1000 = 0 then '.' :: Text.padded 6 (nanosecond / 1000)
  else '.' :: Text.padded 9 nanosecond

/-- Hour, minute and second with colons between them, then the fraction. -/
def text (t : Time) : Text :=
  Text.padded 2 t.hour ++ ':' :: (Text.padded 2 t.minute ++ ':' :: (Text.padded 2 t.second ++
    fractionText t.nanosecond))

/-- Hour and minute at the front of a text. -/
def scanMinutes : Scan (Nat × Nat) := do
  let h ← number 2
  separator ':'
  let m ← number 2
  return (h, m)

/-- Seconds with their fraction at the front of a text. -/
def scanSeconds : Scan (Nat × Nat) := do
  separator ':'
  let s ← number 2
  let n ← fraction
  return (s, n)

/-- A time with seconds at the front of a text. -/
def scan : Scan Time := do
  let (h, m) ← scanMinutes
  let (s, n) ← scanSeconds
  match ofNumbers? h m s n with
  | some time => pure time
  | none => failure

/-- A time without seconds at the front of a text. -/
def scanShort : Scan Time := do
  let (h, m) ← scanMinutes
  match ofNumbers? h m 0 0 with
  | some time => pure time
  | none => failure

/-- Reads a time that takes the whole text; the seconds may be missing. -/
def ofText? (s : Text) : Option Time :=
  match readAll scan s with
  | some t => some t
  | none => readAll scanShort s

end Time

end LiteSql.Calendar

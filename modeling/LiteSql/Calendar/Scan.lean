import LiteSql.Text.Blank
import LiteSql.Text.Digits

/-!
# Reading numbers of dates and times

Each reader takes what it needs from the front of a text and returns the rest.
Blanks may stand before a number and before a separator.
-/

namespace LiteSql.Calendar

/-- A reader takes something from the front of a text. -/
abbrev Scan (α : Type) := StateT Text Option α

/-- At least one and at most `width` digits, after blanks. -/
def number (width : Nat) : Scan Nat := fun s =>
  let s := Text.skipBlank s
  let ds := (s.take width).takeWhile Char.isDigit
  if ds.isEmpty then none else some (Text.ofDigits ds, s.drop ds.length)

/-- All digits at the front, at least one, with no blanks before them. -/
def digitRun : Scan Nat := fun s =>
  match Text.spanDigits s with
  | ([], _) => none
  | (ds, rest) => some (Text.ofDigits ds, rest)

/-- An integer that has up to four digits, or a sign and any number of digits. -/
def year : Scan Int := fun s =>
  match Text.skipBlank s with
  | '-' :: r => (digitRun r).map fun (n, rest) => (-(n : Int), rest)
  | '+' :: r => (digitRun r).map fun (n, rest) => ((n : Int), rest)
  | r => (number 4 r).map fun (n, rest) => ((n : Int), rest)

/-- The given character, after blanks. -/
def separator (c : Char) : Scan Unit := fun s =>
  match Text.skipBlank s with
  | d :: r => if d = c then some ((), r) else none
  | [] => none

/-- The nanoseconds of a fraction such as `.25`; no fraction means zero. Digits
after the ninth are read and dropped. -/
def fraction : Scan Nat := fun s =>
  match s with
  | '.' :: r =>
    match Text.spanDigits r with
    | ([], _) => none
    | (ds, rest) =>
      let kept := ds.take 9
      some (Text.ofDigits kept * Nat.pow 10 (9 - kept.length), rest)
  | _ => some (0, s)

/-- Runs a reader on a whole text; only blanks may remain. -/
def readAll {α : Type} (p : Scan α) (s : Text) : Option α :=
  match p s with
  | some (a, rest) => if (Text.skipBlank rest).isEmpty then some a else none
  | none => none

end LiteSql.Calendar

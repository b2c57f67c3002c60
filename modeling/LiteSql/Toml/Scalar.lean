import LiteSql.Calendar.Date
import LiteSql.Number.Double

/-!
# TOML numbers, dates and times

Each of these values is one word without white space. Only whether a word is well formed
matters here.
-/

namespace LiteSql.Toml

/-- At least one digit of the given kind; single underscores may stand between digits. -/
def isDigitRun (isDigit : Char → Bool) : Text → Bool
  | [] => false
  | [c] => isDigit c
  | c :: '_' :: rest => isDigit c && isDigitRun isDigit rest
  | c :: rest => isDigit c && isDigitRun isDigit rest

/-- The word without its underscores. -/
def plain (s : Text) : Text :=
  s.filter (· != '_')

/-- The value of digits in a base. -/
def valueIn (base : Nat) (s : Text) : Nat :=
  (plain s).foldl (fun n c => base * n + (Text.hexValue? c).getD 0) 0

/-- The word without a sign, and whether that is a minus. -/
def splitSign : Text → Bool × Text
  | '-' :: s => (true, s)
  | '+' :: s => (false, s)
  | s => (false, s)

/-- Digits without a leading zero. -/
def isWhole (s : Text) : Bool :=
  isDigitRun Char.isDigit s && (s.length == 1 || s.head? != some '0')

/-- Digits in another base, within 63 bits. -/
def isBased (base : Nat) (s : Text) : Bool :=
  isDigitRun (fun c => match Text.hexValue? c with
    | some n => n < base
    | none => false) s && valueIn base s < Nat.pow 2 63

/-- An integer of 64 bits. -/
def isInteger (s : Text) : Bool :=
  match s with
  | '0' :: 'x' :: ds => isBased 16 ds
  | '0' :: 'o' :: ds => isBased 8 ds
  | '0' :: 'b' :: ds => isBased 2 ds
  | _ =>
    let (negative, ds) := splitSign s
    isWhole ds && (valueIn 10 ds < Nat.pow 2 63 || (negative && valueIn 10 ds == Nat.pow 2 63))

/-- Splits a word at the first character of a kind, which is dropped. -/
def splitAtFirst (isMark : Char → Bool) (s : Text) : Text × Option Text :=
  match s.dropWhile (!isMark ·) with
  | [] => (s, none)
  | _ :: rest => (s.takeWhile (!isMark ·), some rest)

/-- A floating-point number with a fraction, an exponent or both. A number may fall below
all doubles but not rise above them. -/
def isReal (s : Text) : Bool :=
  let (negative, s) := splitSign s
  let (mantissa, exponent) := splitAtFirst (fun c => c == 'e' || c == 'E') s
  let (whole, fraction) := splitAtFirst (· == '.') mantissa
  let (expNegative, expDigits) := splitSign (exponent.getD ['0'])
  let places := plain (fraction.getD [])
  let size : Int := valueIn 10 expDigits
  isWhole whole && (fraction.isSome || exponent.isSome) &&
    (match fraction with
      | some ds => isDigitRun Char.isDigit ds
      | none => true) &&
    isDigitRun Char.isDigit expDigits &&
    (negative || (Double.ofScientific false (valueIn 10 (whole ++ places))
      ((if expNegative then -size else size) - places.length)).isFinite)

/-- An infinity or the number that is none. -/
def isSpecial (s : Text) : Bool :=
  let (_, w) := splitSign s
  w == "inf".toList || w == "nan".toList

/-- Two digits with a value in a range. -/
def isTwoDigits (low high : Nat) (a b : Char) : Bool :=
  a.isDigit && b.isDigit && low ≤ Text.ofDigits [a, b] && Text.ofDigits [a, b] ≤ high

/-- What follows a date at the front of a word. -/
def afterDate? : Text → Option Text
  | y₁ :: y₂ :: y₃ :: y₄ :: '-' :: m₁ :: m₂ :: '-' :: d₁ :: d₂ :: rest =>
    if [y₁, y₂, y₃, y₄].all Char.isDigit && isTwoDigits 1 12 m₁ m₂ &&
        isTwoDigits 1 (Calendar.daysInMonth (Text.ofDigits [y₁, y₂, y₃, y₄])
          (Text.ofDigits [m₁, m₂])) d₁ d₂ then
      some rest
    else none
  | _ => none

/-- What follows a time at the front of a word. -/
def afterTime? : Text → Option Text
  | h₁ :: h₂ :: ':' :: m₁ :: m₂ :: ':' :: s₁ :: s₂ :: rest =>
    if isTwoDigits 0 23 h₁ h₂ && isTwoDigits 0 59 m₁ m₂ && isTwoDigits 0 60 s₁ s₂ then
      match rest with
      | '.' :: fraction =>
        if (fraction.takeWhile Char.isDigit).isEmpty then none
        else some (fraction.dropWhile Char.isDigit)
      | _ => some rest
    else none
  | _ => none

/-- Nothing, or the distance from universal time. -/
def isOffset : Text → Bool
  | [] => true
  | ['Z'] | ['z'] => true
  | [sign, h₁, h₂, ':', m₁, m₂] =>
    (sign == '+' || sign == '-') && isTwoDigits 0 23 h₁ h₂ && isTwoDigits 0 59 m₁ m₂
  | _ => false

/-- A time, with an offset or without. -/
def isZonedTime (s : Text) : Bool :=
  match afterTime? s with
  | some rest => isOffset rest
  | none => false

/-- A date alone. -/
def isDate (s : Text) : Bool :=
  afterDate? s == some []

/-- A date and a time in one word. -/
def isDateTime (s : Text) : Bool :=
  match afterDate? s with
  | some ('T' :: rest) | some ('t' :: rest) => isZonedTime rest
  | _ => false

/-- A number, a date, a time or both. -/
def isScalar (s : Text) : Bool :=
  isInteger s || isReal s || isSpecial s || isDate s || isDateTime s || afterTime? s == some []

/-- The characters of such words. -/
def isWordChar (c : Char) : Bool :=
  c.isAlphanum || c == '+' || c == '-' || c == '_' || c == '.' || c == ':'

end LiteSql.Toml

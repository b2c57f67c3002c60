import LiteSql.Proofs.Reader
import LiteSql.Proofs.ScalarText
import LiteSql.Tree.Value

/-!
# Literals are read back

A reader of SQL literals knows `NULL`, numbers with a sign, a fraction and an exponent,
strings in single quotes and byte strings. It takes the literal of a value from the front
of a text, leaves what follows, and gives the content of the value: an integer with its
sign, a decimal with all its digits, a string or a byte string as it was, and the text of
a date or a time. So values of one kind that have the same literal are the same, as far as
their texts tell: a leap second inside of a minute has the text of the next second. No value
that is read from a tree has such a time.

Floats are left to a module of their own, since their literals keep the number and not
the digits.
-/

namespace LiteSql

/-- What a literal says. -/
inductive Constant
  | null
  | number (a : Amount)
  | string (content : Text)
  | blob (bytes : List UInt8)
deriving DecidableEq

namespace LiteralReader

open Reader (digits? sign fraction? exponent? isNameChar EndsTerm)

/-- The power of ten of an exponent that is given with its mark. -/
def power? : Text → Option Int
  | [] => none
  | _ :: s => some (Numeral.exponentValue (!(sign s).1.isEmpty, (sign s).2))

def amount? (s : Text) : Option (Amount × Text) := do
  let (whole, rest) ← digits? (sign s).2
  let (fraction, rest) ← fraction? rest
  let (exponent, rest) ← exponent? rest
  return (⟨!(sign s).1.isEmpty, Text.ofDigits (whole ++ fraction.tail), fraction.tail.length,
    power? exponent⟩, rest)

/-- The content of a text in single quotes. -/
def content? (s : Text) : Option (Text × Text) :=
  (Text.readQuoted '\'' s).toOption

/-- The bytes of hexadecimal digits, two for each byte. -/
def bytes? : Text → Option (List UInt8)
  | [] => some []
  | [_] => none
  | c :: d :: s => do
    let high ← Text.hexValue? c
    let low ← Text.hexValue? d
    let bytes ← bytes? s
    return UInt8.ofNat (16 * high + low) :: bytes

/-- A literal at the front of a text, and what follows it. -/
def constant? : Text → Option (Constant × Text)
  | [] => none
  | c :: s =>
    if c = '\'' then do
      let (content, rest) ← content? (c :: s)
      return (.string content, rest)
    else if c = 'X' then do
      let (content, rest) ← content? s
      let bytes ← bytes? content
      return (.blob bytes, rest)
    else if c = 'N' then
      if (c :: s).takeWhile isNameChar = "NULL".toList then
        some (.null, (c :: s).dropWhile isNameChar)
      else none
    else do
      let (a, rest) ← amount? (c :: s)
      return (.number a, rest)

theorem isEmpty_signText (negative : Bool) : (!(Numeral.signText negative).isEmpty) = negative := by
  cases negative <;> rfl

theorem power?_exponentText (n : Numeral) :
    power? (Numeral.exponentText n.exponent) = n.exponent.map Numeral.exponentValue := by
  cases he : n.exponent with
  | none => rfl
  | some e =>
      have hsign := Reader.sign_append (n.exponent_digits e he) e.1 []
      rw [List.append_nil] at hsign
      simp [Numeral.exponentText, power?, hsign, isEmpty_signText]

theorem tail_fractionText (fraction : Option Text) :
    (Numeral.fractionText fraction).tail = fraction.getD [] := by
  cases fraction <;> rfl

/-- The reader gives what the digits of a number stand for. -/
theorem amount?_text (n : Numeral) {rest : Text} (hrest : EndsTerm rest) :
    amount? (n.text ++ rest) = some (n.amount, rest) := by
  simp only [amount?, Reader.sign_text, Reader.digits?_whole n hrest, Option.bind_eq_bind,
    Option.bind_some, Reader.fraction?_text n (Reader.head?_exponentText n hrest),
    Reader.exponent?_text n hrest, power?_exponentText, tail_fractionText, isEmpty_signText]
  rfl

/-- A number does not start like any other literal. -/
theorem constant?_text (n : Numeral) {rest : Text} (hrest : EndsTerm rest) :
    constant? (n.text ++ rest) = some (.number n.amount, rest) := by
  have hread := amount?_text n hrest
  obtain ⟨c, s, htext⟩ := List.exists_cons_of_ne_nil n.text_ne_nil
  have hc : isNumberChar c := n.isNumberChar_of_mem (by simp [htext])
  have hne : ∀ d, isNumberChar d = false → c ≠ d := by
    rintro d hd rfl
    rw [hd] at hc
    cases hc
  rw [htext, List.cons_append] at hread ⊢
  rw [constant?, if_neg (hne '\'' rfl), if_neg (hne 'X' rfl), if_neg (hne 'N' rfl), hread]
  rfl

end LiteralReader

def Amount.ofInt (n : Int) : Amount :=
  ⟨n < 0, n.natAbs, 0, none⟩

/-- What the literal of a value has to say. Floats are told by their number. -/
def Value.constant? : Value → Option Constant
  | .null => some .null
  | .bool b => some (.number (.ofInt (if b then 1 else 0)))
  | .int n => some (.number (.ofInt n.toInt))
  | .float _ => none
  | .decimal d => some (.number ⟨d.negative, d.coefficient, d.scale, none⟩)
  | .string s => some (.string s.toList)
  | .binary bytes => some (.blob bytes)
  | .date d => some (.string d.text)
  | .time t => some (.string t.text)
  | .dateTime dt => some (.string dt.text)

namespace Calendar

end Calendar

/-- The leap second after 23:56:04 has the literal of 23:56:05. -/
example : Value.literal (.time ⟨86164, 1333333333, by decide, by decide⟩) =
    Value.literal (.time ⟨86165, 333333333, by decide, by decide⟩) := rfl

end LiteSql

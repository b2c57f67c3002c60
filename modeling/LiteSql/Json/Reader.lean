import LiteSql.Json.Basic
import LiteSql.Number.Scaling

/-!
# Reading JSON text

A strict reader: no comments, no trailing commas, no leading zeros or plus signs, no
control characters in strings, and nothing but white space after the value.

The readers of nested values take a bound on the number of steps. Every step reads at
least one character, so the length of the text is enough.
-/

namespace LiteSql.Json

/-- Drops white space. -/
def skipSpace (s : Text) : Text :=
  s.dropWhile fun c => c == ' ' || c == '\t' || c == '\n' || c == '\r'

/-- The number with the given digits before and after the point and the given exponent.
Without point and exponent it is an integer if it is in range. -/
def ofNumberParts (negative : Bool) (whole : Text) (fraction : Option Text)
    (exponent : Option Int) : Json :=
  let n := Text.ofDigits whole
  let real := match Double.ofNumeral? negative whole (fraction.getD []) (exponent.getD 0) with
    | some d => float d
    | none => unreadable
  if fraction.isSome || exponent.isSome then real
  else if negative then if 0 < n ∧ n ≤ Nat.pow 2 63 then int (-n) else real
  else if n < Nat.pow 2 64 then int n else real

/-- At least one digit. -/
def readDigits? (s : Text) : Option (Text × Text) :=
  match Text.spanDigits s with
  | ([], _) => none
  | (ds, rest) => some (ds, rest)

/-- The digits before the point, without a leading zero. -/
def readWhole? (s : Text) : Option (Text × Text) := do
  let (ds, rest) ← readDigits? s
  if ds.length > 1 && ds.head? == some '0' then none else some (ds, rest)

/-- A point with digits, if there is a point. -/
def readFraction? : Text → Option (Option Text × Text)
  | '.' :: s => (readDigits? s).map fun (ds, rest) => (some ds, rest)
  | s => some (none, s)

/-- An exponent, if there is one. -/
def readExponent? : Text → Option (Option Int × Text)
  | c :: s =>
    if c = 'e' ∨ c = 'E' then
      match s with
      | '-' :: r => (readDigits? r).map fun (ds, rest) => (some (-(Text.ofDigits ds : Int)), rest)
      | '+' :: r => (readDigits? r).map fun (ds, rest) => (some (Text.ofDigits ds : Int), rest)
      | r => (readDigits? r).map fun (ds, rest) => (some (Text.ofDigits ds : Int), rest)
    else some (none, c :: s)
  | [] => some (none, [])

/-- A number. -/
def readNumber? (s : Text) : Option (Json × Text) := do
  let (negative, s) := match s with
    | '-' :: r => (true, r)
    | r => (false, r)
  let (whole, s) ← readWhole? s
  let (fraction, s) ← readFraction? s
  let (exponent, s) ← readExponent? s
  return (ofNumberParts negative whole fraction exponent, s)

/-- The character that a one-letter escape stands for. -/
def simpleEscape? (c : Char) : Option Nat :=
  if c = '"' ∨ c = '\\' ∨ c = '/' then some c.toNat
  else if c = 'b' then some 8
  else if c = 'f' then some 12
  else if c = 'n' then some 10
  else if c = 'r' then some 13
  else if c = 't' then some 9
  else none

/-- The rest of a string after its opening quote: its code points up to the closing one,
where an escape may also give half a surrogate pair, and what follows. -/
def readString? : Text → Option (List Nat × Text)
  | '"' :: rest => some ([], rest)
  | '\\' :: 'u' :: a :: b :: c :: d :: rest => do
    let w ← Text.hexValue? a
    let x ← Text.hexValue? b
    let y ← Text.hexValue? c
    let z ← Text.hexValue? d
    let (units, rest) ← readString? rest
    return ((((w * 16 + x) * 16 + y) * 16 + z) :: units, rest)
  | '\\' :: c :: rest => do
    let unit ← simpleEscape? c
    let (units, rest) ← readString? rest
    return (unit :: units, rest)
  | c :: rest =>
    if c.toNat < 0x20 ∨ c = '\\' then none
    else do
      let (units, rest) ← readString? rest
      return (c.toNat :: units, rest)
  | [] => none

/-- Puts surrogate pairs together; half a pair is no character. -/
def joinSurrogates? : List Nat → Option Text
  | [] => some []
  | n :: rest =>
    if 0xD800 ≤ n ∧ n < 0xDC00 then
      match rest with
      | m :: rest =>
        if 0xDC00 ≤ m ∧ m < 0xE000 then
          (joinSurrogates? rest).map
            (Char.ofNat (0x10000 + (n - 0xD800) * 0x400 + (m - 0xDC00)) :: ·)
        else none
      | [] => none
    else if 0xDC00 ≤ n ∧ n < 0xE000 then none
    else (joinSurrogates? rest).map (Char.ofNat n :: ·)

/-- The object with the given fields; one key without a text makes it unreadable. -/
def ofFields (fields : List (Option Text × Json)) : Json :=
  match fields.mapM (fun (key, j) => key.map fun k => (String.ofList k, j)) with
  | some fields => object fields
  | none => unreadable

/-- The value of a word. -/
def ofWord? (w : String) (j : Json) (s : Text) : Option (Json × Text) :=
  if w.toList.isPrefixOf s then some (j, s.drop w.length) else none

mutual

/-- A value after white space. -/
def readValue? : Nat → Text → Option (Json × Text)
  | 0, _ => none
  | fuel + 1, s =>
    match skipSpace s with
    | '"' :: rest => do
      let (units, rest) ← readString? rest
      match joinSurrogates? units with
      | some cs => return (string (String.ofList cs), rest)
      | none => return (unreadable, rest)
    | '[' :: rest =>
      match skipSpace rest with
      | ']' :: rest => some (array [], rest)
      | _ => do
        let (items, rest) ← readItems? fuel rest
        return (array items, rest)
    | '\x7b' :: rest =>
      match skipSpace rest with
      | '\x7d' :: rest => some (object [], rest)
      | _ => do
        let (fields, rest) ← readFields? fuel rest
        return (ofFields fields, rest)
    | 'n' :: rest => ofWord? "null" null ('n' :: rest)
    | 't' :: rest => ofWord? "true" (bool true) ('t' :: rest)
    | 'f' :: rest => ofWord? "false" (bool false) ('f' :: rest)
    | rest => readNumber? rest

/-- The items of an array and its closing bracket. -/
def readItems? : Nat → Text → Option (List Json × Text)
  | 0, _ => none
  | fuel + 1, s => do
    let (item, rest) ← readValue? fuel s
    match skipSpace rest with
    | ',' :: rest =>
      let (items, rest) ← readItems? fuel rest
      return (item :: items, rest)
    | ']' :: rest => return ([item], rest)
    | _ => none

/-- The fields of an object and its closing bracket. -/
def readFields? : Nat → Text → Option (List (Option Text × Json) × Text)
  | 0, _ => none
  | fuel + 1, s => do
    match skipSpace s with
    | '"' :: rest =>
      let (units, rest) ← readString? rest
      match skipSpace rest with
      | ':' :: rest =>
        let (item, rest) ← readValue? fuel rest
        let field := (joinSurrogates? units, item)
        match skipSpace rest with
        | ',' :: rest =>
          let (fields, rest) ← readFields? fuel rest
          return (field :: fields, rest)
        | '\x7d' :: rest => return ([field], rest)
        | _ => none
      | _ => none
    | _ => none

end

/-- Reads a text that holds one value. -/
def ofText? (s : String) : Option Json :=
  let cs := s.toList
  match readValue? (cs.length + 1) cs with
  | some (j, rest) => if (skipSpace rest).isEmpty then some j else none
  | none => none

/-- How many brackets may be open at a value that is not ignored. -/
def nestingLimit : Nat := 127

/-- Reads a text that holds one value; what is nested too deeply is unreadable. -/
def ofLimitedText? (s : String) : Option Json :=
  (ofText? s).map (limited nestingLimit)

end LiteSql.Json

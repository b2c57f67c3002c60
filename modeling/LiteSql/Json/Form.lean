import LiteSql.Json.Basic

/-!
# Shapes of JSON values

The conventions by which trees are stored as JSON. A *variant* is the string of its
name, or an object with that name as its only key. A *record* is an object whose unknown
keys are ignored and whose known keys occur once, or an array of its fields in order
whose last fields may be missing.
-/

namespace LiteSql.Json

def string? : Json → Option String
  | .string s => some s
  | _ => none

def bool? : Json → Option Bool
  | .bool b => some b
  | _ => none

/-- An integer that fits the number of bits without a sign. -/
def natural? (bits : Nat) : Json → Option Nat
  | .int n => if 0 ≤ n ∧ n.toNat < Nat.pow 2 bits then some n.toNat else none
  | _ => none

def uint8? (j : Json) : Option UInt8 :=
  (j.natural? 8).map UInt8.ofNat

def uint32? (j : Json) : Option UInt32 :=
  (j.natural? 32).map UInt32.ofNat

def uint64? (j : Json) : Option UInt64 :=
  (j.natural? 64).map UInt64.ofNat

/-- An integer that fits 64 bits with a sign. -/
def int64? : Json → Option Int64
  | .int n =>
    if Int64.minValue.toInt ≤ n ∧ n ≤ Int64.maxValue.toInt then some (Int64.ofInt n) else none
  | _ => none

/-- A number as a double; integers are rounded. -/
def double? : Json → Option Double
  | .int n => some (Double.ofInt n)
  | .float d => if d.isFinite then some d else none
  | _ => none

/-- An array whose items are all read. -/
def list? {α : Type} (item : Json → Option α) : Json → Option (List α)
  | .array items => items.mapM item
  | _ => none

/-- An array of two items. -/
def pair? {α β : Type} (first : Json → Option α) (second : Json → Option β) :
    Json → Option (α × β)
  | .array [a, b] => do return (← first a, ← second b)
  | _ => none

/-- The name and the content of a variant. -/
def variant? : Json → Option (String × Option Json)
  | .string name => some (name, none)
  | .object [(name, content)] => some (name, some content)
  | _ => none

/-- The name of a variant without content. -/
def plainVariant? (j : Json) : Option String :=
  match j.variant? with
  | some (name, none) => some name
  | some (name, some .null) => some name
  | _ => none

/-- The value of a key that occurs at most once. -/
def field? (fields : List (String × Json)) (name : String) : Option (Option Json) :=
  match fields.filter (fun f => f.1 == name) with
  | [] => some none
  | [(_, j)] => some (some j)
  | _ => none

/-- The fields of a record in the order of their names. -/
def record? (names : List String) : Json → Option (List (Option Json))
  | .object fields => names.mapM (field? fields)
  | .array items =>
    if items.length ≤ names.length then
      some (items.map some ++ List.replicate (names.length - items.length) none)
    else none
  | _ => none

/-- A field that may be missing or `null`. -/
def optional? {α : Type} (read : Json → Option α) : Option Json → Option (Option α)
  | none => some none
  | some .null => some none
  | some j => (read j).map some

/-- A field that has a default when it is missing. -/
def withDefault? {α : Type} (default : α) (read : Json → Option α) : Option Json → Option α
  | none => some default
  | some j => read j

/-- A field that may not be missing. -/
def required? {α : Type} (read : Json → Option α) : Option Json → Option α
  | none => none
  | some j => read j

/-- The variant with the given name and content. -/
def variant (name : String) (content : Json) : Json :=
  .object [(name, content)]

/-- An absent value is `null`. -/
def ofOption {α : Type} (write : α → Json) : Option α → Json
  | none => .null
  | some a => write a

def ofStrings (names : List String) : Json :=
  .array (names.map .string)

end LiteSql.Json

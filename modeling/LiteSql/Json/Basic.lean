import LiteSql.Number.Shortest

/-!
# JSON values

Numbers are integers from `-2 ^ 63` up to `2 ^ 64 - 1`, or doubles. Objects keep their
fields in order and may repeat a key. `unreadable` stands for a value that is well
formed but has no meaning here: a number beyond the doubles, a string with half a
surrogate pair, or what is nested too deeply.
-/

namespace LiteSql

/-- A JSON value. -/
inductive Json
  | null
  | bool (b : Bool)
  | int (n : Int)
  | float (d : Double)
  | string (s : String)
  | array (items : List Json)
  | object (fields : List (String × Json))
  | unreadable

namespace Json

mutual

/-- How many brackets are open at the deepest place of a value. -/
def depth : Json → Nat
  | .array items => depthOfItems items + 1
  | .object fields => depthOfFields fields + 1
  | _ => 0

def depthOfItems : List Json → Nat
  | [] => 0
  | j :: items => max j.depth (depthOfItems items)

def depthOfFields : List (String × Json) → Nat
  | [] => 0
  | (_, j) :: fields => max j.depth (depthOfFields fields)

end

mutual

/-- The value with everything unreadable that is inside more than `n` brackets. -/
def limited : Nat → Json → Json
  | 0, .array _ => .unreadable
  | 0, .object _ => .unreadable
  | n + 1, .array items => .array (limitedItems n items)
  | n + 1, .object fields => .object (limitedFields n fields)
  | _, j => j

def limitedItems (n : Nat) : List Json → List Json
  | [] => []
  | j :: items => j.limited n :: limitedItems n items

def limitedFields (n : Nat) : List (String × Json) → List (String × Json)
  | [] => []
  | (key, j) :: fields => (key, j.limited n) :: limitedFields n fields

end

end Json

end LiteSql

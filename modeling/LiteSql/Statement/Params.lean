import LiteSql.Error
import LiteSql.Value

/-!
# Numbered placeholders

While a statement is written, every bound value takes the next placeholder `?1`,
`?2` and so on, and is kept in that order. `Emit` is a step of writing: it may bind
values and it may fail. A step that fails keeps the values that it bound before.
-/

namespace LiteSql

/-- The placeholder with number `n`. -/
def placeholder (n : Nat) : Text :=
  '?' :: Text.digits n

/-- The values bound so far. The counter has no largest number: it is taken not to overflow. -/
structure Params where
  /-- The number of the last placeholder. -/
  last : Nat := 0
  values : List Value := []

/-- A step of writing a statement. -/
abbrev Emit (α : Type) := EStateM Error Params α

namespace Emit

/-- Binds a value and writes its placeholder. -/
def bindValue (v : Value) : Emit Text :=
  modifyGet fun p => (placeholder (p.last + 1), ⟨p.last + 1, p.values ++ [v]⟩)

/-- Binds values in order and writes their placeholders. -/
def bindValues : List Value → Emit (List Text)
  | [] => pure []
  | v :: vs => do
    let first ← bindValue v
    let rest ← bindValues vs
    return first :: rest

/-- A result that binds nothing. -/
def ofExcept {α : Type} : Except Error α → Emit α
  | .ok a => pure a
  | .error e => throw e

/-- Refuses to go on when the condition holds. -/
def refuseIf (condition : Bool) (e : Error) : Emit Unit :=
  if condition then throw e else pure ()

/-- Writes the parts one after the other. -/
def concat : List (Emit Text) → Emit Text
  | [] => pure []
  | part :: parts => do
    let first ← part
    let rest ← concat parts
    return first ++ rest

/-- Runs one step per item, in order. -/
def forEach {α β : Type} (step : α → Emit β) : List α → Emit (List β)
  | [] => pure []
  | a :: as => do
    let first ← step a
    let rest ← forEach step as
    return first :: rest

end Emit

/-- A finished statement: its text, and the values of `?1`, `?2` and so on. -/
structure Compiled where
  sql : String
  params : List Value

/-- Writes a whole statement, starting without bound values. -/
def Emit.compile (step : Emit Text) : Except Error Compiled :=
  match step.run {} with
  | .ok sql params => .ok ⟨String.ofList sql, params.values⟩
  | .error e _ => .error e

end LiteSql

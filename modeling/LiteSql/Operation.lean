import LiteSql.Text.Quoted

/-!
# Data-changing operations

The three statements that change rows.
-/

namespace LiteSql

/-- A statement that changes rows. -/
inductive Operation
  | insert
  | update
  | delete
deriving DecidableEq

/-- The SQL keyword of the operation. -/
def Operation.keyword : Operation → String
  | .insert => "INSERT"
  | .update => "UPDATE"
  | .delete => "DELETE"

end LiteSql
